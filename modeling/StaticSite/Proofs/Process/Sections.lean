import Mathlib
import StaticSite.Proofs.BuildState.Staging
import StaticSite.Proofs.Disk.Making
import StaticSite.Proofs.Process.Steps
import StaticSite.Proofs.Project.Seclusion

/-!
# What operations do to the disk

On the way to its lock an operation only fills in what is missing.  With the lock it changes
nothing but its own data, and what it comes to depends on nothing else that operations change.
-/

namespace StaticSite

variable {disk first second made : Disk} {host host' : Host} {project home : Project}
  {place path : Path} {operation : Operation} {act : Act}

/-! ## Paths of an operation -/

namespace Operation

/-- What the operation reads and writes under its lock. -/
def data (project : Project) : Operation → Path
  | load | save _ | record _ => project.stateFile
  | build => project.live

/-- The name of the lock file. -/
def lockName : Operation → Text
  | load | save _ | record _ => "state.lock".toList
  | build => "build.lock".toList

theorem isData (operation : Operation) : home.IsData (operation.data home) := by
  cases operation with
  | load | save | record => exact .inl rfl
  | build => exact .inr rfl

theorem lockPath_eq (operation : Operation) :
    operation.lockPath project = project.stateRoom ++ [operation.lockName] := by
  cases operation with
  | load | save | record => exact Project.lockFile_stateFile.trans Project.stateLock_eq
  | build => exact Project.buildLock_eq

theorem isLock (operation : Operation) : home.IsLock (operation.lockPath home) := by
  cases operation with
  | load | save | record => exact .inl Project.lockFile_stateFile
  | build => exact .inr rfl

theorem lockPath_parent (operation : Operation) :
    (operation.lockPath project).parent = project.stateRoom := by
  rw [lockPath_eq, Path.parent, List.dropLast_concat]

/-- The same lock is for the same data. -/
theorem data_eq_iff {other : Operation} : operation.data home = other.data home ↔
    operation.lockPath home = other.lockPath home := by
  have differentData : home.stateFile ≠ home.live := by
    simp [Project.stateFile, Project.live]
  have differentLocks : home.stateLock ≠ home.buildLock := by
    simp [Project.stateLock, Project.buildLock]
  cases operation <;> cases other <;>
    simp [data, lockPath, Project.lockFile_stateFile, differentData,
      differentData.symm, differentLocks, differentLocks.symm]

end Operation

/-! ## Hosts -/

/-- The locks are on the lock files of the project, and these are there. -/
def Host.LocksFiles (host : Host) (home : Project) : Prop :=
  ∀ held ∈ host.locks, home.IsLock held.place ∧ host.disk.holdsFile held.place = true

theorem Project.Evolves.holdsFile (evolves : home.Evolves first second) (isLock : home.IsLock place)
    (isFile : first.holdsFile place = true) : second.holdsFile place = true := by
  obtain ⟨bytes, stands⟩ := Disk.holdsFile_eq_true.1 isFile
  rcases evolves.lock place isLock with same | ⟨free, _⟩
  · exact Disk.holdsFile_eq_true.2 ⟨bytes, same.trans stands⟩
  · rw [free] at stands
    cases stands

/-- Locks are not lost as long as operations on the project change the disk. -/
theorem Host.LocksFiles.withDisk_eq (locksFiles : host.LocksFiles home)
    (evolves : home.Evolves host.disk disk) : host.withDisk disk = { host with disk } := by
  have kept : host.locks.filter (fun held => disk.holdsFile held.place) = host.locks :=
    List.filter_eq_self.2 fun held isHeld =>
      evolves.holdsFile (locksFiles held isHeld).1 (locksFiles held isHeld).2
  rw [Host.withDisk, kept]

theorem Host.LocksFiles.evolve (locksFiles : host.LocksFiles home)
    (evolves : home.Evolves host.disk disk) : { host with disk }.LocksFiles home :=
  fun held isHeld =>
    ⟨(locksFiles held isHeld).1, evolves.holdsFile (locksFiles held isHeld).1
      (locksFiles held isHeld).2⟩

/-! ## On the way to the lock -/

/-- The directory of the lock files is there and can be reached. -/
structure RoomReady (disk : Disk) (project home : Project) : Prop where
  path : Disk.checkPathText project.stateRoom.text = .ok ()
  room : disk.entry? home.stateRoom = some .directory

/-- The lock file of the operation is there and can be reached. -/
structure LockReady (disk : Disk) (project home : Project) (operation : Operation) : Prop
    extends RoomReady disk project home where
  lockPath : Disk.checkPathText (operation.lockPath project).text = .ok ()
  lock : disk.holdsFile (operation.lockPath home) = true

/-- What is known at each stage on the way to the lock. -/
def Approach.Ready (disk : Disk) (project home : Project) (operation : Operation) :
    Approach → Prop
  | preparing | entering => True
  | opening => RoomReady disk project home
  | trying place => place = operation.lockPath home ∧ LockReady disk project home operation

theorem RoomReady.evolve (ready : RoomReady first project home)
    (evolves : home.Evolves first second) : RoomReady second project home :=
  ⟨ready.path, evolves.stateRoom ready.room⟩

theorem LockReady.evolve (ready : LockReady first project home operation)
    (evolves : home.Evolves first second) : LockReady second project home operation :=
  ⟨ready.toRoomReady.evolve evolves, ready.lockPath,
    evolves.holdsFile operation.isLock ready.lock⟩

theorem Approach.Ready.evolve {approach : Approach}
    (ready : approach.Ready first project home operation) (evolves : home.Evolves first second) :
    approach.Ready second project home operation := by
  cases approach with
  | preparing | entering => trivial
  | opening => exact RoomReady.evolve ready evolves
  | trying place => exact ⟨ready.1, ready.2.evolve evolves⟩

theorem BuildState.prepare_eq : BuildState.prepare host project.stateFile
    = (host.disk.makeDirectories project.stateRoom).map
        (·.mapError fun fault => .stateWrite (.createParent fault)) host.withDisk := by
  have notRoot : project.stateFile ≠ [] := by simp [Project.stateFile]
  rw [BuildState.prepare, if_neg notRoot, Project.stateFile_parent]
  cases host.disk.makeDirectories project.stateRoom with
  | mk result made => cases result <;> rfl

theorem evolves_makeDirectories {result : Except Fault Unit}
    (secluded : project.Secluded disk home)
    (makes : disk.makeDirectories project.stateRoom = (result, made)) :
    home.Evolves disk made ∧ ∀ data, home.IsData data → home.SameData disk made data := by
  cases result with
  | error fault =>
    rw [secluded.makeDirectories_eq_error makes]
    exact ⟨.refl home disk, fun data _ => .refl home disk data⟩
  | ok _ =>
    obtain ⟨_, _, rfl⟩ := secluded.makeDirectories_eq_ok.1 makes
    exact ⟨Project.evolves_fill_stateRoom, fun data isData => .fill isData.not_owns_stateRoom⟩

theorem roomReady_of_makeDirectories (secluded : project.Secluded disk home)
    (makes : disk.makeDirectories project.stateRoom = (.ok (), made)) :
    RoomReady made project home := by
  obtain ⟨path, accepts, rfl⟩ := secluded.makeDirectories_eq_ok.1 makes
  exact ⟨path, accepts.fill⟩

theorem openToWrite_eq_ok (secluded : project.Secluded disk home)
    (room : disk.entry? home.stateRoom = some .directory) :
    disk.openToWrite (operation.lockPath project) = .ok (place, made) ↔
      Disk.checkPathText (operation.lockPath project).text = .ok () ∧
        disk.AcceptsFile (operation.lockPath home) ∧ place = operation.lockPath home ∧
        made = disk.fill (operation.lockPath home) (.file []) := by
  have isLock : home.IsLock (operation.lockPath home) := operation.isLock
  simp only [operation.lockPath_eq] at isLock ⊢
  exact secluded.openToWrite_eq_ok room isLock

/-- A step without a lock leaves the data of all operations as they are. -/
theorem Approaches.changes {approach : Approach} {next : Option Approach}
    (approaches : Approaches project operation host approach act host' next)
    (secluded : project.Secluded host.disk home) (locksFiles : host.LocksFiles home)
    (ready : approach.Ready host.disk project home operation) :
    ∃ disk, host' = { host with disk } ∧ home.Evolves host.disk disk ∧
      (∀ data, home.IsData data → home.SameData host.disk disk data) ∧
      ∀ later, next = some later → later.Ready disk project home operation := by
  -- A step that fails may have made some of the missing directories all the same.
  cases approaches with
  | prepared prepared =>
    cases makes : host.disk.makeDirectories project.stateRoom with
    | mk result made =>
    obtain ⟨evolves, same⟩ := evolves_makeDirectories secluded makes
    rw [BuildState.prepare_eq, makes] at prepared
    obtain rfl := (Prod.mk.inj prepared).2
    refine ⟨made, locksFiles.withDisk_eq evolves, evolves, same, ?_⟩
    rintro _ ⟨⟩
    trivial
  | unprepared failed =>
    cases makes : host.disk.makeDirectories project.stateRoom with
    | mk result made =>
    obtain ⟨evolves, same⟩ := evolves_makeDirectories secluded makes
    rw [BuildState.prepare_eq, makes] at failed
    obtain rfl := (Prod.mk.inj failed).2
    exact ⟨made, locksFiles.withDisk_eq evolves, evolves, same, nofun⟩
  | @entered made makes =>
    -- The lock file is in the directory of the state file, which is made once more.
    rw [operation.lockPath_parent] at makes
    obtain ⟨evolves, same⟩ := evolves_makeDirectories secluded makes
    refine ⟨made, locksFiles.withDisk_eq evolves, evolves, same, ?_⟩
    rintro _ ⟨⟩
    exact roomReady_of_makeDirectories secluded makes
  | @notEntered made fault makes =>
    rw [operation.lockPath_parent] at makes
    obtain ⟨evolves, same⟩ := evolves_makeDirectories secluded makes
    exact ⟨made, locksFiles.withDisk_eq evolves, evolves, same, nofun⟩
  | opened opened =>
    obtain ⟨path, accepts, rfl, rfl⟩ := (openToWrite_eq_ok secluded ready.room).1 opened
    have isLock : home.IsLock (operation.lockPath home) := operation.isLock
    have evolves : home.Evolves host.disk _ := Project.evolves_fill_lock isLock
    refine ⟨_, locksFiles.withDisk_eq evolves, evolves, fun data isData =>
      .fill (isData.not_owns_lock isLock), ?_⟩
    rintro _ ⟨⟩
    exact ⟨rfl, RoomReady.evolve ready evolves, path, accepts.fill⟩
  | notOpened failed => exact ⟨host.disk, rfl, .refl home _, fun data _ => .refl home _ data, nofun⟩
  | waited contended =>
    refine ⟨host.disk, rfl, .refl home _, fun data _ => .refl home _ data, ?_⟩
    rintro _ ⟨⟩
    exact ready.2.toRoomReady
  | timedOut contended =>
    exact ⟨host.disk, rfl, .refl home _, fun data _ => .refl home _ data, nofun⟩

/-! ## With the lock -/

/-- The disk is one on which operations have been able to take locks. -/
structure Project.Furnished (disk : Disk) (project home : Project) : Prop
    extends Secluded disk project home where
  path : Disk.checkPathText project.stateRoom.text = .ok ()
  room : disk.entry? home.stateRoom = some .directory

theorem Project.Furnished.evolve (furnished : project.Furnished first home)
    (evolves : home.Evolves first second) : project.Furnished second home :=
  ⟨furnished.toSecluded.evolve evolves, furnished.path, evolves.stateRoom furnished.room⟩

/-- The directory of the state file can be opened. -/
theorem Project.Furnished.isDirectory (furnished : project.Furnished disk home) :
    disk.isDirectory project.stateFile.parent = true := by
  rw [Project.stateFile_parent]
  exact (furnished.reaches_stateRoom furnished.room).isDirectory furnished.path

/-- What the change comes to depends on nothing but the pages to publish and the data at the place,
and it changes nothing else. -/
structure Confined {α : Type} (project home : Project) (place : Path) (change : Disk → α × Disk) :
    Prop where
  congr : ∀ first second, project.Furnished first home → project.Furnished second home →
    project.compiledSite first = project.compiledSite second →
    home.SameData first second place →
    (change first).1 = (change second).1 ∧
      home.SameData (change first).2 (change second).2 place
  frame : ∀ disk, project.Furnished disk home → ∀ path, ¬ home.Owns place path →
    Disk.entry? (change disk).2 path = disk.entry? path
  noLink : ∀ disk, project.Furnished disk home → ∀ target,
    Disk.entry? (change disk).2 place = some (.link target) →
      disk.entry? place = some (.link target)

namespace Confined

variable {α β : Type} {change : Disk → α × Disk}

theorem still (result : α) : Confined project home place fun disk => (result, disk) where
  congr _ _ _ _ _ same := ⟨rfl, same⟩
  frame _ _ _ _ := rfl
  noLink _ _ _ linked := linked

/-- A change may also depend on anything that is the same where all else is. -/
theorem depending {value : Disk → β} {changes : β → Disk → α × Disk}
    (confined : ∀ b, Confined project home place (changes b))
    (same : ∀ first second, project.Furnished first home → project.Furnished second home →
      project.compiledSite first = project.compiledSite second →
      home.SameData first second place → value first = value second) :
    Confined project home place fun disk => changes (value disk) disk where
  congr first second furnished furnished' compiles sameData := by
    rw [same first second furnished furnished' compiles sameData]
    exact (confined _).congr first second furnished furnished' compiles sameData
  frame disk := (confined _).frame disk
  noLink disk := (confined _).noLink disk

theorem map (confined : Confined project home place change) (wrap : α → β) :
    Confined project home place fun disk => (change disk).map wrap id where
  congr first second furnished furnished' compiles same := by
    obtain ⟨sameResult, sameDisk⟩ := confined.congr first second furnished furnished' compiles same
    exact ⟨congrArg wrap sameResult, sameDisk⟩
  frame := confined.frame
  noLink := confined.noLink

theorem evolves (confined : Confined project home place change) (isData : home.IsData place)
    (furnished : project.Furnished disk home) : home.Evolves disk (change disk).2 :=
  Project.evolves_of_data isData (confined.frame disk furnished) (confined.noLink disk furnished)

/-- Other data stay the same. -/
theorem sameData (confined : Confined project home place change) (isData : home.IsData place)
    (isData' : home.IsData path) (different : path ≠ place)
    (furnished : project.Furnished disk home) : home.SameData disk (change disk).2 path :=
  fun other owns =>
    (confined.frame disk furnished other (isData'.owns_apart isData different owns)).symm

end Confined

namespace Project.Furnished

variable (furnished : project.Furnished disk home)

include furnished

theorem replaceState_eq (state : BuildState) : project.replaceState disk state
    = match Disk.checkReplace project.stateFile (disk.entry? home.stateFile) with
      | .error fault => (.error (.stateWrite (.persist fault)), disk)
      | .ok () => (.ok (), disk.put home.stateFile (.file (Utf8.encode state.write))) := by
  rw [replaceState, furnished.replaceFile_eq furnished.room]
  cases Disk.checkReplace project.stateFile (disk.entry? home.stateFile) <;> rfl

theorem drop_scratch (number : Nat) : project.Furnished (disk.drop (home.scratch number)) home :=
  furnished.evolve (Project.evolves_drop_scratch number)

theorem nameState_eq (number : Nat) : project.nameState disk (home.scratch number)
    = match disk.entry? (home.scratch number) with
      | some (.file bytes) =>
          match Disk.checkReplace project.stateFile (disk.entry? home.stateFile) with
          | .error fault =>
              (.error (.stateWrite (.persist fault)), disk.drop (home.scratch number))
          | .ok () => (.ok (), (disk.drop (home.scratch number)).put home.stateFile (.file bytes))
      | _ => (.error (.stateWrite (.persist .notFound)), disk.drop (home.scratch number)) := by
  have dropped := furnished.drop_scratch number
  unfold nameState Disk.renameFile
  cases disk.entry? (home.scratch number) with
  | none => rfl
  | some entry =>
    cases entry with
    | directory | link => rfl
    | file bytes =>
      dsimp only
      rw [dropped.replaceFile_eq dropped.room, entry?_drop_scratch_stateFile]
      cases Disk.checkReplace project.stateFile (disk.entry? home.stateFile) <;> rfl

theorem replacePages_eq (compiled : List (Path × Text)) : project.replacePages disk compiled
    = (publishAs disk project.live home.live (pageTree compiled)).map
        (·.map fun _ => { files := compiled.map (·.1) }) id := by
  rw [replacePages, furnished.publish_eq]
  obtain ⟨result, published⟩ := publishAs disk project.live home.live (pageTree compiled)
  cases result <;> rfl

end Project.Furnished

theorem confined_replaceState (state : BuildState) :
    Confined project home home.stateFile fun disk => project.replaceState disk state where
  congr first second furnished furnished' _ same := by
    -- What is checked and what is put both concern the one place of the state file.
    rw [furnished.replaceState_eq, furnished'.replaceState_eq, same _ (.inl List.prefix_rfl)]
    cases Disk.checkReplace project.stateFile (second.entry? home.stateFile) with
    | error fault => exact ⟨rfl, same⟩
    | ok _ =>
      refine ⟨rfl, fun path owns => ?_⟩
      rw [Disk.entry?_put Project.stateFile_ne_nil, Disk.entry?_put Project.stateFile_ne_nil,
        same path owns]
  frame disk furnished path notOwned := by
    rw [furnished.replaceState_eq]
    cases Disk.checkReplace project.stateFile (disk.entry? home.stateFile) with
    | error fault => rfl
    | ok _ =>
      refine Disk.entry?_put_of_ne ?_
      rintro rfl
      exact notOwned (.inl List.prefix_rfl)
  noLink disk furnished target linked := by
    rw [furnished.replaceState_eq] at linked
    cases checked : Disk.checkReplace project.stateFile (disk.entry? home.stateFile) with
    | error fault =>
      rw [checked] at linked
      exact linked
    | ok _ =>
      rw [checked, Disk.entry?_put_self Project.stateFile_ne_nil] at linked
      cases linked

/-- What a temporary file is given to become depends on it and on what stands in the way. -/
theorem confined_nameState (number : Nat) :
    Confined project home home.stateFile fun disk =>
      project.nameState disk (home.scratch number) where
  congr first second furnished furnished' _ same := by
    have sameScratch := same _ (.inr ⟨rfl, Project.isScratch_scratch number⟩)
    have dropped : home.SameData (first.drop (home.scratch number))
        (second.drop (home.scratch number)) home.stateFile := by
      intro path owns
      rw [Disk.entry?_drop Project.scratch_ne_nil, Disk.entry?_drop Project.scratch_ne_nil,
        same path owns]
    rw [furnished.nameState_eq, furnished'.nameState_eq, same _ (.inl List.prefix_rfl), sameScratch]
    cases second.entry? (home.scratch number) with
    | none => exact ⟨rfl, dropped⟩
    | some entry =>
      cases entry with
      | directory | link => exact ⟨rfl, dropped⟩
      | file bytes =>
        cases Disk.checkReplace project.stateFile (second.entry? home.stateFile) with
        | error fault => exact ⟨rfl, dropped⟩
        | ok _ =>
          refine ⟨rfl, fun path owns => ?_⟩
          rw [Disk.entry?_put Project.stateFile_ne_nil, Disk.entry?_put Project.stateFile_ne_nil,
            dropped path owns]
  frame disk furnished path notOwned := by
    have dropped : Disk.entry? (disk.drop (home.scratch number)) path = disk.entry? path :=
      Project.entry?_drop_scratch notOwned
    have different : path ≠ home.stateFile := by
      rintro rfl
      exact notOwned (.inl List.prefix_rfl)
    rw [furnished.nameState_eq]
    split
    · split
      · exact dropped
      · exact (Disk.entry?_put_of_ne different).trans dropped
    · exact dropped
  noLink disk furnished target linked := by
    rw [furnished.nameState_eq] at linked
    split at linked
    · split at linked
      · exact Project.entry?_drop_scratch_stateFile.symm.trans linked
      · rw [Disk.entry?_put_self Project.stateFile_ne_nil] at linked
        cases linked
    · exact Project.entry?_drop_scratch_stateFile.symm.trans linked

theorem confined_replacePages (compiled : List (Path × Text)) :
    Confined project home home.live fun disk => project.replacePages disk compiled where
  congr first second furnished furnished' _ same := by
    rw [furnished.replacePages_eq, furnished'.replacePages_eq]
    unfold Project.publishAs
    cases Disk.checkPathText project.live.text with
    | error fault => exact ⟨rfl, same⟩
    | ok _ =>
      obtain ⟨sameResult, sameDisk⟩ := Project.publishAt_congr Project.live_ne_nil same.sameAt
      refine ⟨?_, fun path owns => sameDisk path (Project.owns_live.1 owns)⟩
      simp only [Prod.map_fst, sameResult]
  frame disk furnished path notOwned := by
    rw [furnished.replacePages_eq]
    unfold Project.publishAs
    cases Disk.checkPathText project.live.text with
    | error fault => rfl
    | ok _ => exact Project.publishAt_frame Project.live_ne_nil fun below => notOwned (.inl below)
  noLink disk furnished target linked := by
    rw [furnished.replacePages_eq] at linked
    unfold Project.publishAs at linked
    cases checked : Disk.checkPathText project.live.text with
    | error fault =>
      rw [checked] at linked
      exact linked
    | ok _ =>
      rw [checked] at linked
      exact Project.publishAt_noLink Project.live_ne_nil (fun _ => Project.pageTree_noLink) linked

/-- What a build comes to once its pages are compiled. -/
def Project.finishBuild (disk : Disk) (project : Project) :
    Except SiteError (List (Path × Text)) → Outcome × Disk
  | .error error => (.built (.error error), disk)
  | .ok compiled => (project.replacePages disk compiled).map .built id

/-- A build compiles the pages and replaces the published ones. -/
theorem Project.build_of_compiled {compiled : List (Path × Text)}
    (compiles : project.compiledSite disk = .ok compiled) :
    project.build disk = project.replacePages disk compiled := by
  obtain ⟨config, configured, passed, compiles, stages⟩ := compiledSite_eq_ok.1 compiles
  have prepared := prepare_eq_ok.2 ⟨passed, compiles, stages, rfl⟩
  simp only [build, configured, buildWith, prepared]
  rfl

theorem Project.build_eq (disk : Disk) (project : Project) :
    (project.build disk).map .built id = project.finishBuild disk (project.compiledSite disk) := by
  cases compiles : project.compiledSite disk with
  | error error => rw [build_of_not_compiled compiles, finishBuild]; rfl
  | ok compiled => rw [build_of_compiled compiles, finishBuild]

/-- What is left to do comes to this, if nothing happens in between. -/
def Work.finish (project : Project) (disk : Disk) : Work → Outcome × Disk
  | read => (.loaded (BuildState.readFile disk project.stateFile), disk)
  | revise latest =>
      (project.replaceState disk (project.revised disk latest)).map .written id
  | stage state => (project.replaceState disk state).map .written id
  | rename temporary => (project.nameState disk temporary).map .written id
  | compile => project.finishBuild disk (project.compiledSite disk)
  | swap compiled => project.finishBuild disk (.ok compiled)
  | release outcome => (outcome, disk)

/-- Whether the operation writes the state file. -/
def Operation.Writes : Operation → Prop
  | save _ | record _ => True
  | load | build => False

/-- The work is a part of what the operation does. -/
inductive Work.Serves (home : Project) : Operation → Work → Prop where
  | read : Serves home .load .read
  | revise {latest : BuildRecord} : Serves home (.record latest) (.revise latest)
  | stage {operation : Operation} {state : BuildState} (writes : operation.Writes) :
      Serves home operation (.stage state)
  | rename {operation : Operation} {number : Nat} (writes : operation.Writes) :
      Serves home operation (.rename (home.scratch number))
  | compile : Serves home .build .compile
  | swap {compiled : List (Path × Text)} : Serves home .build (.swap compiled)
  | release {operation : Operation} {outcome : Outcome} :
      Serves home operation (.release outcome)

theorem Work.Serves.begin (operation : Operation) : operation.work.Serves home operation := by
  cases operation with
  | load => exact .read
  | save state => exact .stage trivial
  | record latest => exact .revise
  | build => exact .compile

theorem Operation.Writes.data_eq (writes : operation.Writes) :
    operation.data project = project.stateFile := by
  cases operation with
  | load | build => cases writes
  | save | record => rfl

theorem Operation.Writes.lock_eq (writes : operation.Writes) :
    operation.lockPath project = BuildState.lockFile project.stateFile ∧
      operation.mode = .exclusive ∧ operation.description = "state update".toList := by
  cases operation with
  | load | build => cases writes
  | save | record => exact ⟨rfl, rfl, rfl⟩

theorem readFile_eq (furnished : project.Furnished first home)
    (furnished' : project.Furnished second home)
    (same : home.SameData first second home.stateFile) :
    BuildState.readFile first project.stateFile = BuildState.readFile second project.stateFile := by
  have found : first.find project.stateFile = second.find project.stateFile := by
    rw [furnished.find_stateFile_eq furnished.room, furnished'.find_stateFile_eq furnished'.room,
      same _ (.inl List.prefix_rfl)]
  simp only [BuildState.readFile, Disk.readText, Disk.readBytes, found]

theorem confined_finishBuild (result : Except SiteError (List (Path × Text))) :
    Confined project home home.live fun disk => project.finishBuild disk result := by
  cases result with
  | error error => exact .still _
  | ok compiled => exact (confined_replacePages compiled).map _

theorem confined_finish {work : Work} (serves : work.Serves home operation) :
    Confined project home (operation.data home) fun disk => work.finish project disk := by
  cases serves with
  | read =>
    exact (Confined.depending .still fun _ _ furnished furnished' _ =>
      readFile_eq furnished furnished').map Outcome.loaded
  | revise =>
    -- What is written depends on what is read, but that is the operation's own data.
    refine (Confined.depending confined_replaceState ?_).map Outcome.written
    intro first second furnished furnished' _ same
    rw [Project.revised, Project.revised, readFile_eq furnished furnished' same]
  | stage writes =>
    rw [writes.data_eq]
    exact (confined_replaceState _).map _
  | rename writes =>
    rw [writes.data_eq]
    exact (confined_nameState _).map _
  | compile => exact .depending confined_finishBuild fun _ _ _ _ compiles _ => compiles
  | swap => exact confined_finishBuild (.ok _)
  | release => exact .still _

theorem eq_load_of_shared (shared : operation.mode = .shared) : operation = .load := by
  cases operation with
  | load => rfl
  | save | record | build => cases shared

theorem finish_of_shared {work : Work} (serves : work.Serves home operation)
    (shared : operation.mode = .shared) : (work.finish project disk).2 = disk := by
  obtain rfl := eq_load_of_shared shared
  cases serves with
  | read | release => rfl
  | stage writes | rename writes => cases writes

/-- A change of the disk keeps what an operation has to keep: everything but its own data, and these
as well if others may be reading them. -/
structure Keeps (home : Project) (operation : Operation) (disk made : Disk) : Prop where
  evolves : home.Evolves disk made
  sameData : ∀ place, home.IsData place → (operation.data home = place → operation.mode = .shared) →
    home.SameData disk made place

theorem Keeps.refl (home : Project) (operation : Operation) (disk : Disk) :
    Keeps home operation disk disk :=
  ⟨.refl home disk, fun place _ _ => .refl home disk place⟩

/-- Who writes alone only has to keep the data of others. -/
theorem keeps_of_exclusive (exclusive : operation.mode = .exclusive)
    (frame : ∀ path, ¬ home.Owns (operation.data home) path →
      made.entry? path = disk.entry? path)
    (noLink : ∀ target, made.entry? (operation.data home) = some (.link target) →
      disk.entry? (operation.data home) = some (.link target)) :
    Keeps home operation disk made where
  evolves := Project.evolves_of_data operation.isData frame noLink
  sameData place isData shared path owns := by
    have different : place ≠ operation.data home := by
      rintro rfl
      cases exclusive.symm.trans (shared rfl)
    exact (frame path (isData.owns_apart operation.isData different owns)).symm

/-- What is left to do keeps it. -/
theorem Work.Serves.keeps {work : Work} (serves : work.Serves home operation)
    (furnished : project.Furnished disk home) :
    Keeps home operation disk (work.finish project disk).2 := by
  have confined : Confined project home (operation.data home) fun disk =>
      work.finish project disk := confined_finish serves
  cases mode : operation.mode with
  | exclusive =>
    exact keeps_of_exclusive mode (confined.frame disk furnished) (confined.noLink disk furnished)
  | shared =>
    rw [finish_of_shared serves mode]
    exact .refl home operation disk

/-! ## Steps with the lock -/

theorem place_eq_of_data (operation : Operation) (furnished : project.Furnished disk home)
    (found : disk.placeOf (operation.data project) = .ok place) :
    place = operation.data home := by
  have short : Text.byteLength "state.json".toList ≤ Disk.maxNameBytes ∧
      Text.byteLength Project.liveName ≤ Disk.maxNameBytes := by decide
  cases operation with
  | load | save | record =>
    rw [Operation.data, Project.stateFile_eq,
      (furnished.reaches_stateRoom furnished.room).placeOf_eq short.1] at found
    obtain ⟨_, same⟩ := Except.check_bind_eq_ok.1 found
    cases same
    exact Project.stateFile_eq.symm
  | build =>
    rw [Operation.data, Project.live, furnished.reaches_root.placeOf_eq short.2] at found
    obtain ⟨_, same⟩ := Except.check_bind_eq_ok.1 found
    cases same
    rfl

/-- A state is written to a new file in the directory of the state. -/
theorem Project.Furnished.stageFile_eq (furnished : project.Furnished disk home)
    (state : BuildState) : ∃ number, disk.IsFresh (home.scratch number) ∧
      BuildState.stageFile disk project.stateFile state = (.ok (home.scratch number),
        disk.put (home.scratch number) (.file (Utf8.encode state.write))) := by
  rcases BuildState.stageFile_cases furnished.isDirectory state {} with
    ⟨_, _, _, refuses, _⟩ | ⟨here, number, reaches, fresh, isStaged⟩
  · exact absurd refuses BuildState.StoreTrouble.not_refuses
  · rw [Project.stateFile_parent] at reaches
    obtain rfl := (furnished.reaches_stateRoom furnished.room).unique reaches
    exact ⟨number, fresh, isStaged⟩

/-- No lock is on what is replaced. -/
theorem forgetLocks_eq (operation : Operation) (furnished : project.Furnished host.disk home)
    (locksFiles : host.LocksFiles home) :
    host.forgetLocks (operation.data project) = host := by
  unfold Host.forgetLocks
  split
  · next place found =>
    have kept : host.locks.filter (fun held => !place.isPrefixOf held.place) = host.locks := by
      refine List.filter_eq_self.2 fun held isHeld => ?_
      rw [Bool.not_eq_true', ← Bool.not_eq_true, List.isPrefixOf_iff_prefix,
        place_eq_of_data operation furnished found]
      exact operation.isData.not_lock (locksFiles held isHeld).1
    rw [kept]
  · rfl

theorem afterReplacing_eq {α : Type} {change : Except SiteError α × Disk} (operation : Operation)
    (furnished : project.Furnished host.disk home) (locksFiles : host.LocksFiles home)
    (evolves : home.Evolves host.disk change.2) :
    host.afterReplacing (operation.data project) change
      = (change.1, { host with disk := change.2 }) := by
  obtain ⟨result, disk⟩ := change
  have sameLocks := locksFiles.withDisk_eq evolves
  cases result with
  | error error => exact congrArg (Prod.mk _) sameLocks
  | ok _ =>
    rw [Host.afterReplacing, forgetLocks_eq operation furnished locksFiles]
    exact congrArg (Prod.mk _) sameLocks

/-- A temporary file gets the name of the state file or is removed. -/
theorem nameFile_eq (furnished : project.Furnished host.disk home)
    (locksFiles : host.LocksFiles home) (number : Nat) :
    BuildState.nameFile host project.stateFile (home.scratch number)
      = ((project.nameState host.disk (home.scratch number)).1,
          { host with disk := (project.nameState host.disk (home.scratch number)).2 }) := by
  have evolves := (confined_nameState number).evolves (.inl rfl) furnished
  have dropped := furnished.drop_scratch number
  have keepsLocks : home.Evolves host.disk (host.disk.drop (home.scratch number)) :=
    Project.evolves_drop_scratch number
  unfold BuildState.nameFile
  unfold Project.nameState at evolves ⊢
  simp only [Fault.check, Except.ok_bind]
  cases replaced : host.disk.renameFile (home.scratch number) project.stateFile with
  | error fault => exact congrArg (Prod.mk _) (locksFiles.withDisk_eq keepsLocks)
  | ok disk =>
    rw [replaced] at evolves
    have room := Disk.isDirectory_eq_true.1 (furnished.evolve evolves).isDirectory
    have forget : Host.forgetLocks { host with disk := host.disk.drop (home.scratch number) }
        project.stateFile = { host with disk := host.disk.drop (home.scratch number) } :=
      forgetLocks_eq .load dropped (locksFiles.evolve keepsLocks)
    dsimp only at room evolves ⊢
    rw [room, locksFiles.withDisk_eq keepsLocks, forget]
    have kept : host.locks.filter (fun held => disk.holdsFile held.place) = host.locks :=
      List.filter_eq_self.2 fun held isHeld =>
        evolves.holdsFile (locksFiles held isHeld).1 (locksFiles held isHeld).2
    simp only [Except.ok_bind, Host.withDisk, kept]

theorem entry?_put_scratch {number : Nat} {entry : Entry}
    (notOwned : ¬ home.Owns home.stateFile path) :
    Disk.entry? (disk.put (home.scratch number) entry) path = disk.entry? path := by
  refine Disk.entry?_put_of_ne ?_
  rintro rfl
  exact notOwned (.inr ⟨rfl, Project.isScratch_scratch number⟩)

theorem entry?_put_scratch_stateFile {number : Nat} {entry : Entry} :
    Disk.entry? (disk.put (home.scratch number) entry) home.stateFile
      = disk.entry? home.stateFile := by
  refine Disk.entry?_put_of_ne fun same => ?_
  have notBelow : ¬ home.scratch number <+: home.stateFile := Project.stateFile_not_scratch
  rw [same] at notBelow
  exact notBelow List.prefix_rfl

/-- Nobody else sees a temporary file before it has its name. -/
theorem keeps_put_scratch (writes : operation.Writes) (number : Nat) (entry : Entry) :
    Keeps home operation disk (disk.put (home.scratch number) entry) := by
  obtain ⟨_, exclusive, _⟩ := @Operation.Writes.lock_eq home operation writes
  refine keeps_of_exclusive exclusive (fun path notOwned => ?_) fun target linked => ?_
  · exact entry?_put_scratch (writes.data_eq ▸ notOwned)
  · rw [writes.data_eq] at linked ⊢
    exact entry?_put_scratch_stateFile.symm.trans linked

/-- To name a new temporary file comes to putting its state in the place of the old one. -/
theorem nameState_put {number : Nat} (fresh : disk.IsFresh (home.scratch number))
    (state : BuildState) :
    project.nameState
        (disk.put (home.scratch number) (.file (Utf8.encode state.write))) (home.scratch number)
      = project.replaceState disk state := by
  rw [Project.nameState, fresh.renameFile_put Project.scratch_ne_nil, fresh.drop_put,
    Project.replaceState]

theorem writeFile_eq (furnished : project.Furnished host.disk home)
    (locksFiles : host.LocksFiles home) (state : BuildState) :
    BuildState.writeFile host project.stateFile state
      = ((project.replaceState host.disk state).1,
          { host with disk := (project.replaceState host.disk state).2 }) := by
  obtain ⟨number, fresh, isStaged⟩ := furnished.stageFile_eq state
  have evolves : home.Evolves host.disk
      (host.disk.put (home.scratch number) (.file (Utf8.encode state.write))) :=
    Project.evolves_of_data (.inl rfl) (fun _ => entry?_put_scratch) fun _ linked =>
      entry?_put_scratch_stateFile.symm.trans linked
  have named := nameFile_eq (furnished.evolve evolves) (locksFiles.evolve evolves) number
  rw [nameState_put fresh] at named
  rw [BuildState.writeFile, isStaged]
  dsimp only
  rw [locksFiles.withDisk_eq evolves, named]

/-- A step of the work leaves the rest of what is to be done, which comes to the same. -/
theorem Works.changes {work work' : Work} (works : Works project host work act host' work')
    (furnished : project.Furnished host.disk home) (locksFiles : host.LocksFiles home)
    (serves : work.Serves home operation) :
    ∃ disk, host' = { host with disk } ∧ Keeps home operation host.disk disk ∧
      work'.finish project disk = work.finish project host.disk ∧ work'.Serves home operation := by
  cases works with
  | read => exact ⟨host.disk, rfl, .refl home _ _, rfl, .release⟩
  | revise =>
    cases serves
    exact ⟨host.disk, rfl, .refl home _ _, rfl, .stage trivial⟩
  | @stage state temporary disk isStaged =>
    cases serves with
    | stage writes =>
      obtain ⟨number, fresh, isStaged'⟩ := furnished.stageFile_eq state
      rw [isStaged'] at isStaged
      cases isStaged
      have keeps : Keeps home operation host.disk _ :=
        keeps_put_scratch writes number (.file (Utf8.encode state.write))
      refine ⟨_, locksFiles.withDisk_eq keeps.evolves, keeps, ?_, .rename writes⟩
      rw [Work.finish, Work.finish, nameState_put fresh]
  | notStaged failed =>
    obtain ⟨_, _, isStaged⟩ := furnished.stageFile_eq _
    rw [isStaged] at failed
    cases failed
  | rename =>
    cases serves with
    | rename writes =>
      rw [nameFile_eq furnished locksFiles]
      exact ⟨_, rfl, (Work.Serves.rename writes).keeps furnished, rfl, .release⟩
  | compile compiles =>
    cases serves
    refine ⟨host.disk, rfl, .refl home _ _, ?_, .swap⟩
    rw [Work.finish, Work.finish, compiles]
  | notCompiled failed =>
    refine ⟨host.disk, rfl, .refl home _ _, ?_, .release⟩
    rw [Work.finish, Work.finish, failed, Project.finishBuild]
  | @swap compiled =>
    cases serves
    have evolves := (confined_replacePages compiled).evolves (.inr rfl) furnished
    have replaces := afterReplacing_eq .build furnished locksFiles evolves
    rw [Operation.data] at replaces
    rw [replaces]
    exact ⟨_, rfl, Work.Serves.swap.keeps furnished, rfl, .release⟩

end StaticSite
