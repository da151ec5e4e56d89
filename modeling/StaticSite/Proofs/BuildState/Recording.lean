import StaticSite.Proofs.BuildState.Storing
import StaticSite.Proofs.Disk.Making
import StaticSite.Proofs.Project.Atomicity
import StaticSite.Proofs.Project.Seclusion

/-!
# Recording a build

A record takes the place of the state file as a whole, or what stands there stays as it is.  Nothing
of the old state is kept, so that it does not matter what was in the file or whether it could be
read.  What is left on the way is at most the directory of the state and the lock file: a temporary
file has either become the state file or is gone.
-/

namespace StaticSite

namespace Host

variable {host ready : Host} {path : Path} {mode : LockMode} {description : Text}
  {error : LockError} {trouble : LockTrouble}

end Host

namespace BuildState

variable {host roomed ready loaded after : Host} {path : Path} {project home : Project}
  {record : BuildRecord} {state : BuildState} {next : Disk → BuildState} {held : HeldLock}
  {result : Except SiteError Unit} {error : SiteError} {trouble : StoreTrouble} {fault : Fault}

/-! ## What an update comes to -/

theorem prepare_grows (host : Host) (path : Path) (trouble : StoreTrouble := {}) :
    host.disk.Grows (prepare host path trouble).2.disk
      (Project.MadeForLock (lockFile path)) := by
  unfold prepare
  split
  · exact .refl _ _
  · have rooms := (Disk.makeDirectories_grows host.disk path.parent trouble.making).weaken
      (fun _ _ made => Or.inl (lockFile_parent path ▸ made) : ∀ other entry, _ →
        Project.MadeForLock (lockFile path) other entry)
    split
    · next made =>
      rw [made] at rooms
      exact rooms
    · next made =>
      rw [made] at rooms
      exact rooms

/-- The state with a record of the last build. -/
def recorded (record : BuildRecord) : BuildState where
  schemaVersion := currentSchema
  build := some record

/-- Whatever stands at the path, the state that a record is added to is of the current schema. -/
theorem schemaVersion_readFile (disk : Disk) (path : Path) (refusal : Option Fault) :
    ((readFile disk path refusal).toOption.getD empty).schemaVersion = currentSchema := by
  cases found : readFile disk path refusal with
  | error error => rfl
  | ok state =>
    obtain ⟨_, _, _, _, _, current⟩ := readFile_eq_ok.1 (readFile_of_refusal found)
    exact current

/-- Nothing of the old state is kept. -/
theorem recordBuild_eq (host : Host) (project : Project) (record : BuildRecord)
    (trouble : StoreTrouble := {}) : recordBuild host project record trouble
      = update host project.stateFile (fun _ => recorded record) trouble := by
  unfold recordBuild
  dsimp only
  congr 1
  funext disk
  rw [recorded, schemaVersion_readFile]

/-- The path of the project leads to the directory `home`, and no link is where the state is
kept. -/
structure Unlinked (disk : Disk) (project home : Project) : Prop where
  reaches : disk.Reaches project.root home.root
  noLink : ∀ place, place = home.stateRoom ∨ place = home.stateLock ∨ place = home.stateFile →
    ∀ target, disk.entry? place ≠ some (.link target)

namespace Unlinked

variable {disk larger : Disk} {place : Path}

/-- What has a name in the directory of the state is found in that directory. -/
theorem reaches_stateRoom (unlinked : Unlinked disk project home) {name : Text}
    (followed : disk.follow false Disk.maxLinks ((project.stateRoom ++ [name]).map .enter) []
      = .ok place) : disk.Reaches project.stateRoom home.stateRoom := by
  rw [List.map_append] at followed
  obtain ⟨_, room, leads, isDirectory⟩ :=
    Disk.leads_of_follow_append (List.cons_ne_nil _ _) followed
  obtain ⟨_, rfl⟩ := unlinked.reaches.eq_append_of_follow (unlinked.noLink _ (.inl rfl))
    leads.follow
  exact ⟨⟨_, leads⟩, isDirectory⟩

end Unlinked

section

variable (unlinked : Unlinked host.disk project home)
  (filePath : Disk.checkPathText project.stateFile.text = .ok ())
  (lockPath : Disk.checkPathText project.stateLock.text = .ok ())
  (room : host.disk.AcceptsDirectory home.stateRoom)
  (lock : host.disk.AcceptsFile home.stateLock)
  (free : ∀ held ∈ host.locks, held.place ≠ home.stateLock)

include unlinked filePath lockPath room lock free

end

/-- A system that does not let the directory of the state be opened for writing it out. -/
def unopened : StoreTrouble where
  parentSync := some .permissionDenied

end BuildState

end StaticSite
