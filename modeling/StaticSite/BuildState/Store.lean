import StaticSite.BuildState
import StaticSite.Project

/-!
# The stored state

The state file is read under a shared lock and replaced in one step under an exclusive one.  The
lock file stands beside it, and so does for a moment the temporary file that takes its place.
-/

namespace StaticSite.BuildState

/-- What the system refuses while the stored state is read or replaced. -/
structure StoreTrouble where
  /-- Directories above the state file that cannot be made. -/
  making : Path → Option Fault := fun _ => none
  lock : LockTrouble := {}
  /-- Why the state file cannot be read. -/
  reading : Option Fault := none
  /-- Why there can be no temporary file. -/
  creation : Option Fault := none
  /-- The room for the bytes of the temporary file. -/
  room : Disk.Room := none
  /-- Why the temporary file cannot be written out. -/
  sync : Option Fault := none
  /-- Why the temporary file cannot be given the path of the state file. -/
  naming : Option Fault := none
  /-- Whether a temporary file stays that is given up. -/
  keeps : Bool := false
  /-- Why the directory cannot be written out, once the state file is replaced. -/
  parentSync : Option Fault := none

/-- The lock file beside a state file. -/
def lockFile (path : Path) : Path :=
  path.parent ++ ["state.lock".toList]

/-- Makes the directory of the state file. -/
def prepare (host : Host) (path : Path) (trouble : StoreTrouble := {}) :
    Except SiteError Unit × Host :=
  if path = [] then (.error (.stateWrite .noParent), host)
  else match host.disk.makeDirectories path.parent trouble.making with
    | (.ok (), disk) => (.ok (), host.withDisk disk)
    | (.error fault, disk) => (.error (.stateWrite (.createParent fault)), host.withDisk disk)

/-- The state in a file, which has to be of the current schema. -/
def readFile (disk : Disk) (path : Path) (refusal : Option Fault := none) :
    Except SiteError BuildState :=
  match (do Fault.check refusal; disk.readText path) with
  | .error fault => .error (.stateRead (.read fault))
  | .ok text =>
      match BuildState.read? text with
      | none => .error (.stateRead .parse)
      | some state =>
          if state.schemaVersion = currentSchema then .ok state
          else .error (.unknownSchema state.schemaVersion)

/-- Gives a temporary file up.  That it cannot be removed is not told. -/
def giveUp (disk : Disk) (temporary : Path) (trouble : StoreTrouble) : Disk :=
  if trouble.keeps then disk else disk.drop temporary

/-- Writes a state to a temporary file beside the state file.  Gives its canonical path. -/
def stageFile (disk : Disk) (path : Path) (state : BuildState) (trouble : StoreTrouble := {}) :
    Except SiteError Path × Disk :=
  let (written, arrived) := Disk.Room.take (Utf8.encode state.write) trouble.room
  match (do Fault.check trouble.creation; disk.writeTemporary path.parent arrived) with
  | .error fault => (.error (.stateWrite (.createTemporary fault)), disk)
  | .ok (temporary, staged) =>
      match (do
        written.mapError StateWriteFault.writeTemporary
        (Fault.check trouble.sync).mapError .syncTemporary) with
      | .error fault => (.error (.stateWrite fault), giveUp staged temporary trouble)
      | .ok () => (.ok temporary, staged)

/-- Gives the temporary file the path of the state file, in one step.  Last the directory is opened
once more, so that the change gets written out. -/
def nameFile (host : Host) (path temporary : Path) (trouble : StoreTrouble := {}) :
    Except SiteError Unit × Host :=
  match (do Fault.check trouble.naming; host.disk.renameFile temporary path) with
  | .error fault =>
      (.error (.stateWrite (.persist fault)), host.withDisk (giveUp host.disk temporary trouble))
  | .ok disk =>
      let host := ((host.withDisk (host.disk.drop temporary)).forgetLocks path).withDisk disk
      match (do let _ ← disk.find path.parent; Fault.check trouble.parentSync) with
      | .error fault => (.error (.stateWrite (.syncParent fault)), host)
      | .ok () => (.ok (), host)

/-- Replaces the state file. -/
def writeFile (host : Host) (path : Path) (state : BuildState) (trouble : StoreTrouble := {}) :
    Except SiteError Unit × Host :=
  match stageFile host.disk path state trouble with
  | (.error error, disk) => (.error error, host.withDisk disk)
  | (.ok temporary, disk) => nameFile (host.withDisk disk) path temporary trouble

/-- Reads the state file under a shared lock. -/
def load (host : Host) (path : Path) (trouble : StoreTrouble := {}) :
    Except SiteError BuildState × Host :=
  match prepare host path trouble with
  | (.error error, host) => (.error error, host)
  | (.ok (), host) =>
      match host.withLock (lockFile path) .shared "state read".toList
        (fun host => (readFile host.disk path trouble.reading, host)) trouble.lock with
      | (.error error, host) => (.error (.stateRead (.lock error)), host)
      | (.ok result, host) => (result, host)

/-- Reads the state file; whatever cannot be read counts as nothing recorded. -/
def loadOrEmpty (host : Host) (path : Path) (trouble : StoreTrouble := {}) : BuildState × Host :=
  match load host path trouble with
  | (.ok state, host) => (state, host)
  | (.error _, host) => (empty, host)

/-- Changes the state file under an exclusive lock.  The new state may depend on the old one. -/
def update (host : Host) (path : Path) (next : Disk → BuildState) (trouble : StoreTrouble := {}) :
    Except SiteError Unit × Host :=
  match prepare host path trouble with
  | (.error error, host) => (.error error, host)
  | (.ok (), host) =>
      match host.withLock (lockFile path) .exclusive "state update".toList
        (fun host => writeFile host path (next host.disk) trouble) trouble.lock with
      | (.error error, host) => (.error (.stateWrite (.lock error)), host)
      | (.ok result, host) => (result, host)

/-- Stores a state. -/
def save (host : Host) (path : Path) (state : BuildState) (trouble : StoreTrouble := {}) :
    Except SiteError Unit × Host :=
  update host path (fun _ => state) trouble

/-- Records how a build of a project went. -/
def recordBuild (host : Host) (project : Project) (record : BuildRecord)
    (trouble : StoreTrouble := {}) : Except SiteError Unit × Host :=
  let earlier (disk : Disk) := readFile disk project.stateFile trouble.reading
  update host project.stateFile
    (fun disk => { (earlier disk).toOption.getD empty with build := some record }) trouble

end StaticSite.BuildState
