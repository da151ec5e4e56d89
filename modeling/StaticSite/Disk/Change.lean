import StaticSite.Disk.Locate
import StaticSite.Text.Numeral

/-!
# Changing the disk

Each operation gives a new disk, or the fault for which it was refused.  The system can stop a write
or a removal on its way, and then a part of it has happened.  What it stops is an argument of the
operation, and nothing if it is left out.
-/

namespace StaticSite.Disk

/-- Makes one directory in a directory that exists.  A dot can only name one that is there. -/
def makeDirectory (disk : Disk) (path : Path) : PathEnding → Except Fault Disk
  | .plain | .slash => do
      let place ← disk.placeOf path
      match disk.entry? place with
      | some _ => .error .alreadyExists
      | none => .ok (disk.put place .directory)
  | .dot => do
      let _ ← disk.look path .dot
      .error .alreadyExists

/-- Makes one directory, or keeps what stands at its path if that is a directory or leads to
one. -/
def ensureDirectory (disk : Disk) (path : Path) (refusal : Option Fault := none) :
    Except Fault Disk :=
  match disk.makeDirectory path .plain with
  | .ok made => (Fault.check refusal).map fun _ => made
  | .error fault => if disk.isDirectory path then .ok disk else .error fault

/-- Makes the directory whose names, last name first, are given, after those above it that are
missing. -/
def makeClimbing (disk : Disk) (names : List Text)
    (refused : Path → Option Fault := fun _ => none) : Except Fault Unit × Disk :=
  match names with
  | [] => (.ok (), disk)
  | name :: above =>
      let path := (name :: above).reverse
      match disk.ensureDirectory path (refused path) with
      | .ok made => (.ok (), made)
      | .error .notFound =>
          match makeClimbing disk above refused with
          | (.error fault, partly) => (.error fault, partly)
          | (.ok (), ready) =>
              match ready.ensureDirectory path (refused path) with
              | .ok made => (.ok (), made)
              | .error fault => (.error fault, ready)
      | .error fault => (.error fault, disk)

/-- Makes a directory and those above it that are missing, of which the system can refuse any.
Directories made before a fault stay. -/
def makeDirectories (disk : Disk) (path : Path) (refused : Path → Option Fault := fun _ => none) :
    Except Fault Unit × Disk :=
  disk.makeClimbing path.reverse refused

/-- Opens a file for writing without changing it, and creates it empty if its place is free.
Gives the canonical path of the file. -/
def openToWrite (disk : Disk) (path : Path) : Except Fault (Path × Disk) := do
  let place ← disk.writeTarget path
  match disk.entry? place with
  | none => .ok (place, disk.put place (.file []))
  | some (.file _) => .ok (place, disk)
  | some _ => .error .isDirectory

/-- How much there is room for, and the fault of what goes beyond it. -/
abbrev Room := Option (Nat × Fault)

/-- The part of a list that there is room for, and whether that is all of it. -/
def Room.take {α : Type} (items : List α) : Room → Except Fault Unit × List α
  | none => (.ok (), items)
  | some (count, fault) =>
      if count < items.length then (.error fault, items.take count) else (.ok (), items)

/-- What the system refuses when a file is written. -/
structure WriteTrouble where
  opening : Option Fault := none
  /-- The room for the bytes of the file. -/
  room : Room := none

/-- Makes `bytes` the content of the file at a path, which is created if its place is free.
A link is followed.  The file is emptied first, so one that is not written to its end holds the
front part of the bytes. -/
def writeBytes (disk : Disk) (path : Path) (bytes : List UInt8) (trouble : WriteTrouble := {}) :
    Except Fault Unit × Disk :=
  match trouble.opening with
  | some fault => (.error fault, disk)
  | none =>
      match disk.openToWrite path with
      | .error fault => (.error fault, disk)
      | .ok (place, opened) =>
          let (result, arrived) := Room.take bytes trouble.room
          (result, opened.put place (.file arrived))

/-- Makes `text` the content of the file at a path. -/
def writeText (disk : Disk) (path : Path) (text : Text) (trouble : WriteTrouble := {}) :
    Except Fault Unit × Disk :=
  disk.writeBytes path (Utf8.encode text) trouble

/-- Puts a new file at a path in one step.  A file or link that stood there is gone, and the
target of such a link is not touched. -/
def replaceFile (disk : Disk) (path : Path) (bytes : List UInt8) : Except Fault Disk := do
  if '\x00' ∈ path.text then .error .invalidArgument
  let place ← disk.placeOf path
  match disk.entry? place with
  | some .directory => .error .isDirectory
  | _ => .ok (disk.put place (.file bytes))

/-- The names that temporary files get, one after the other. -/
def temporaryName (number : Nat) : Text :=
  ".tmp".toList ++ Numeral.padded 6 number

/-- The first of these names under which there is nothing in the directory at `place`. -/
def freeName (disk : Disk) (place : Path) : Text :=
  let isFree (number : Nat) :=
    disk.entries.rows.all fun row => !(place ++ [temporaryName number]).isPrefixOf row.1
  temporaryName (((List.range (disk.entries.rows.length + 1)).find? isFree).getD 0)

/-- Writes a temporary file into the directory that a path leads to.  Gives the canonical path of
the file. -/
def writeTemporary (disk : Disk) (path : Path) (bytes : List UInt8) :
    Except Fault (Path × Disk) := do
  let (place, _) ← disk.look path .slash
  let temporary := place ++ [disk.freeName place]
  .ok (temporary, disk.put temporary (.file bytes))

/-- Gives the file with the canonical path `source` another path, in one step. -/
def renameFile (disk : Disk) (source path : Path) : Except Fault Disk :=
  match disk.entry? source with
  | some (.file bytes) => (disk.drop source).replaceFile path bytes
  | _ => .error .notFound

/-- Removes an empty directory.  A slash leads through no link here, and what a dot names cannot
be removed. -/
def removeDirectory (disk : Disk) (path : Path) : PathEnding → Except Fault Disk
  | .plain | .slash => do
      let place ← disk.placeOf path
      match disk.entry? place with
      | none => .error .notFound
      | some .directory =>
          if (disk.below place).isEmpty then .ok (disk.drop place) else .error .directoryNotEmpty
      | some _ => .error .notDirectory
  | .dot => do
      let _ ← disk.look path .dot
      .error .invalidArgument

/-- What the system refuses to remove. -/
structure Obstacle where
  /-- Paths below the directory that is removed, counted from it.  They stay, and so do all
  directories above them. -/
  kept : List Path
  fault : Fault

/-- Removes a directory with everything in it.  A link is removed itself, and a file is refused.
The directory is looked up anew once it is empty, since the path may have led through what was in
it; a directory that is out of reach by then stays.  Where something cannot be removed, the
directory stays with it, but other things may be gone. -/
def removeTree (disk : Disk) (path : Path) (ending : PathEnding)
    (obstacle : Option Obstacle := none) : Except Fault Unit × Disk :=
  match disk.look path ending with
  | .error fault => (.error fault, disk)
  | .ok (_, .file _) => (.error .notDirectory, disk)
  | .ok (place, .link _) =>
      match obstacle with
      | some obstacle => (.error obstacle.fault, disk)
      | none => (.ok (), disk.drop place)
  | .ok (place, .directory) =>
      match obstacle with
      | some obstacle => (.error obstacle.fault, disk.prune place obstacle.kept)
      | none =>
          let cleared := disk.clear place
          match cleared.removeDirectory path ending with
          | .ok removed => (.ok (), removed)
          | .error .notFound => (.ok (), cleared)
          | .error fault => (.error fault, cleared)

/-- Gives a tree made elsewhere the name `path`, which is free or an empty directory. -/
def moveTreeTo (disk : Disk) (path : Path) (tree : Disk) : Except Fault Disk := do
  let place ← disk.placeOf path
  match disk.entry? place with
  | none => .ok (disk.graft place tree)
  | some .directory =>
      if (disk.below place).isEmpty then .ok (disk.graft place tree)
      else .error .directoryNotEmpty
  | some _ => .error .notDirectory

end StaticSite.Disk
