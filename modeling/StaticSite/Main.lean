import StaticSite.CommandLine.Run
import StaticSite.Disk.Difference
import Std.Time.DateTime

/-!
# The command line tool

The tool works on the files and directories that standard input lists, one path a line, as `find`
prints them.  It reads them, runs the command line on the disk that they make up, and writes back
what has changed.  A link counts as what it leads to.
-/

namespace StaticSite.CommandLine

/-- The name of a path for the operating system. -/
def systemName (path : Path) : String :=
  String.ofList path.text

/-- What stands at a path. -/
def readEntry (path : Path) : IO (Option Entry) := do
  try
    return some (.file (← IO.FS.readBinFile (systemName path)).toList)
  catch
    | .noFileOrDirectory .. => return none
    | _ => return some .directory

/-- The disk with what stands at a listed path. -/
def addListed (here : Path) (disk : Disk) (line : String) : IO Disk := do
  let listed := line.toList
  let written := if PathText.isRooted listed then listed else here.text ++ '/' :: listed
  match PathText.normalize? written with
  | none | some [] => return disk
  | some path =>
      match ← readEntry path with
      | none => return disk
      | some entry => return (disk.makeDirectories (Path.parent path)).2.put path entry

/-- Removes an entry. -/
def removeEntry : Path × Entry → IO Unit
  | (path, .directory) => IO.FS.removeDir (systemName path)
  | (path, _) => IO.FS.removeFile (systemName path)

/-- Puts an entry in its place.  Commands make no links. -/
def addEntry : Path × Entry → IO Unit
  | (path, .directory) => IO.FS.createDirAll (systemName path)
  | (path, .file bytes) => IO.FS.writeBinFile (systemName path) ⟨bytes.toArray⟩
  | (_, .link _) => return ()

/-- The present, in universal time. -/
def present : IO Instant := do
  let now := Std.Time.PlainDateTime.ofWallTime ((← Std.Time.Timestamp.now).toWallTime .zero)
  let date := Date.of? now.date.year now.date.month.toNat now.date.day.toNat
  let time := DayTime.of? now.time.hour.toNat now.time.minute.toNat now.time.second.toNat
    now.time.nanosecond.toNat
  match date, time with
  | some date, some time => return { date, time }
  | _, _ => throw (IO.userError "the clock shows no date")

end StaticSite.CommandLine

open StaticSite CommandLine in
/-- Runs the command line and ends with its exit code. -/
def main (arguments : List String) : IO UInt32 := do
  let started ← IO.monoMsNow
  let here := (PathText.normalize? (toString (← IO.currentDir)).toList).getD []
  let before ← (← (← IO.getStdin).lines).foldlM (addListed here)
    (Disk.empty.makeDirectories here).2
  let now ← present
  let surroundings : Surroundings := {
    directory := here
    presetPath := (← IO.getEnv "SITECRAFT_PROJECT").map String.toList
    clock := ⟨now, now, .ofNat ((← IO.monoMsNow) - started)⟩ }
  let (outcome, host) := run { disk := before } surroundings (arguments.map String.toList)
  (before.removed host.disk).forM removeEntry
  (before.added host.disk).forM addEntry
  (← IO.getStdout).write ⟨outcome.output.toArray⟩
  (← IO.getStderr).write ⟨outcome.errors.toArray⟩
  return .ofNat outcome.code
