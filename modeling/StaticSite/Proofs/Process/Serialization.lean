import Mathlib
import StaticSite.Proofs.Process.Exclusion

/-!
# Runs in order of their locks

Whatever order the processes take their steps in, operations come to what they come to when they are
performed one after the other in the order in which they got their locks.

The row is made along with the run: an operation is performed there as a whole when it takes its
lock here.  `Agrees` says that it is going to come to the same here.  Until then its own data may
differ from those in the row, but nobody else looks at them or changes them, and `Confined` says
that nothing else matters.
-/

namespace StaticSite

variable {ι : Type} [DecidableEq ι] {disk first second : Disk} {project home : Project}
  {host : Host} {operation : Operation} {system system' : System ι} {event : Event ι}
  {trace : List (Event ι)} {jobs : ι → List Operation}

/-! ## One operation without others -/

/-- An operation will find its directory and its lock file, or make them. -/
structure Admits (disk : Disk) (project home : Project) (operation : Operation) : Prop where
  path : Disk.checkPathText project.stateRoom.text = .ok ()
  room : disk.AcceptsDirectory home.stateRoom
  lockPath : Disk.checkPathText (operation.lockPath project).text = .ok ()
  lock : disk.AcceptsFile (operation.lockPath home)

/-- The disk with the lock file of an operation. -/
def Operation.furnish (home : Project) (disk : Disk) (operation : Operation) : Disk :=
  (disk.fill home.stateRoom .directory).fill (operation.lockPath home) (.file [])

/-- The host on which an operation works alone, with so many locks taken before. -/
def Operation.alone (home : Project) (issued : Nat) (operation : Operation) (disk : Disk) :
    Host where
  disk := disk
  locks := [⟨operation.lockPath home, operation.mode, issued⟩]
  issued := issued + 1

theorem stateRoom_ne_lockPath : home.stateRoom ≠ operation.lockPath home := by
  rw [operation.lockPath_eq]
  simp

theorem evolves_furnish (operation : Operation) : home.Evolves disk (operation.furnish home disk) :=
  Project.evolves_fill_stateRoom.trans (Project.evolves_fill_lock operation.isLock)

theorem sameData_furnish {place : Path} (isData : home.IsData place) :
    home.SameData disk (operation.furnish home disk) place :=
  (Project.SameData.fill isData.not_owns_stateRoom).trans
    (.fill (isData.not_owns_lock operation.isLock))

namespace Admits

variable (admits : Admits disk project home operation)

include admits

theorem fill : Admits (disk.fill home.stateRoom .directory) project home operation where
  path := admits.path
  room := .inr admits.room.fill
  lockPath := admits.lockPath
  lock := by
    have elsewhere : Disk.entry? (disk.fill home.stateRoom .directory) (operation.lockPath home)
        = disk.entry? (operation.lockPath home) := by
      rw [Disk.entry?_fill, if_neg stateRoom_ne_lockPath.symm]
    unfold Disk.AcceptsFile Disk.holdsFile
    rw [elsewhere]
    exact admits.lock

theorem furnished (secluded : project.Secluded disk home) :
    project.Furnished (operation.furnish home disk) home where
  toSecluded := secluded.evolve (evolves_furnish operation)
  path := admits.path
  room := by
    rw [Operation.furnish, Disk.entry?_fill, if_neg stateRoom_ne_lockPath, admits.room.fill]

end Admits

section

variable (noLocks : host.locks = []) (secluded : project.Secluded host.disk home)
  (admits : Admits host.disk project home operation)

include admits in
theorem alone_locksFiles (issued : Nat) :
    (operation.alone home issued (operation.furnish home host.disk)).LocksFiles home := by
  intro held isHeld
  cases List.mem_singleton.1 isHeld
  exact ⟨operation.isLock, admits.fill.lock.fill⟩

include noLocks secluded admits

theorem acquire_eq (description : Text) :
    host.acquire (operation.lockPath project) operation.mode description
      = (.ok ⟨operation.lockPath home, operation.mode, host.issued⟩,
          operation.alone home host.issued (operation.furnish home host.disk)) := by
  have made := secluded.makeDirectories_eq_ok.2 ⟨admits.path, admits.room, rfl⟩
  have opened := (openToWrite_eq_ok (secluded.evolve Project.evolves_fill_stateRoom)
    admits.room.fill).2 ⟨admits.lockPath, admits.fill.lock, rfl, rfl⟩
  obtain ⟨disk, locks, issued⟩ := host
  cases noLocks
  rw [Host.acquire, operation.lockPath_parent]
  simp only [made, opened]
  rfl

variable {α : Type} (description : Text) (work : Host → α × Host) {result : α} {after : Disk}
  (worked : work (operation.alone home host.issued (operation.furnish home host.disk))
    = (result, operation.alone home host.issued after))

include worked

/-- The work of an operation that finds no lock is done on the disk with its lock file. -/
theorem withLock_eq : host.withLock (operation.lockPath project) operation.mode description work
    = (.ok result, { disk := after, issued := host.issued + 1 }) := by
  rw [Host.withLock, acquire_eq noLocks secluded admits]
  simp only [worked]
  simp [Host.release, Operation.alone]

/-- To make the directory first makes no difference to the lock. -/
theorem prepare_withLock_eq : ∃ ready,
    BuildState.prepare host project.stateFile = (.ok (), ready) ∧
      ready.withLock (operation.lockPath project) operation.mode description work
        = (.ok result, { disk := after, issued := host.issued + 1 }) := by
  obtain ⟨ready, isReady⟩ : ∃ ready : Host,
      ready = { host with disk := host.disk.fill home.stateRoom .directory } := ⟨_, rfl⟩
  refine ⟨ready, ?_, ?_⟩
  · have made := secluded.makeDirectories_eq_ok.2 ⟨admits.path, admits.room, rfl⟩
    rw [BuildState.prepare_eq]
    simp [made, Host.withDisk, noLocks, isReady]
  · -- The directory is filled in a second time for the lock file.
    have secluded' := secluded.evolve Project.evolves_fill_stateRoom
    have admits' := admits.fill
    have again : operation.furnish home (host.disk.fill home.stateRoom .directory)
        = operation.furnish home host.disk := by
      simp only [Operation.furnish, Disk.fill_fill]
    have sameDisk : ready.disk = host.disk.fill home.stateRoom .directory := by rw [isReady]
    have sameIssued : ready.issued = host.issued := by rw [isReady]
    rw [← sameDisk] at secluded' admits' again
    rw [← again, ← sameIssued] at worked
    rw [← sameIssued]
    exact withLock_eq (isReady ▸ noLocks) secluded' admits' description work worked

end

theorem update_eq (operation : Operation) (writes : operation.Writes) (noLocks : host.locks = [])
    (secluded : project.Secluded host.disk home)
    (admits : Admits host.disk project home operation) (next : Disk → BuildState) :
    BuildState.update host project.stateFile next
      = ((project.replaceState (operation.furnish home host.disk)
            (next (operation.furnish home host.disk))).1,
          { disk := (project.replaceState (operation.furnish home host.disk)
              (next (operation.furnish home host.disk))).2
            issued := host.issued + 1 }) := by
  have furnished := admits.furnished secluded
  have worked := writeFile_eq furnished (alone_locksFiles admits host.issued)
    (next (operation.furnish home host.disk))
  obtain ⟨ready, prepared, locked⟩ := prepare_withLock_eq noLocks secluded admits
    "state update".toList (fun host => BuildState.writeFile host project.stateFile (next host.disk))
    worked
  obtain ⟨lockPath, mode, _⟩ := writes.lock_eq
  rw [lockPath, mode] at locked
  simp only [BuildState.update, prepared, locked]
  rfl

/-- An operation that is not disturbed comes to what its work comes to. -/
theorem Operation.perform_eq (noLocks : host.locks = [])
    (secluded : project.Secluded host.disk home)
    (admits : Admits host.disk project home operation) :
    operation.perform project host
      = ((operation.work.finish project (operation.furnish home host.disk)).1,
          { disk := (operation.work.finish project (operation.furnish home host.disk)).2
            issued := host.issued + 1 }) := by
  cases operation with
  | load =>
    obtain ⟨ready, prepared, locked⟩ := prepare_withLock_eq noLocks secluded admits
      "state read".toList (fun host => (BuildState.readFile host.disk project.stateFile, host)) rfl
    rw [lockPath, mode] at locked
    simp only [perform, BuildState.load, prepared, locked]
    rfl
  | save state =>
    rw [perform, BuildState.save, update_eq (.save state) trivial noLocks secluded admits]
    rfl
  | record latest =>
    rw [perform, BuildState.recordBuild,
      update_eq (.record latest) trivial noLocks secluded admits]
    rfl
  | build =>
    have furnished := admits.furnished secluded
    have built := Project.build_eq (Operation.furnish home host.disk .build) project
    have evolves : home.Evolves _ (project.build (Operation.furnish home host.disk .build)).2 :=
      congrArg Prod.snd built ▸ (confined_finish .compile).evolves (.inr rfl) furnished
    have worked := afterReplacing_eq .build furnished (alone_locksFiles admits host.issued) evolves
    have locked := withLock_eq noLocks secluded admits "site build".toList
      (Project.buildOn · project) worked
    rw [lockPath, mode] at locked
    simp only [perform, Project.buildLocked, locked]
    rw [work, Work.finish, ← built]
    rfl

/-! ## Operations in a row -/

/-- The row grows at its end. -/
theorem performAll_snoc (operations : List Operation) :
    performAll project host (operations ++ [operation])
      = ((performAll project host operations).1
            ++ [(operation.perform project (performAll project host operations).2).1],
          (operation.perform project (performAll project host operations).2).2) := by
  induction operations generalizing host with
  | nil => rfl
  | cons first rest ih => rw [List.cons_append, performAll, ih, performAll, List.cons_append]

omit [DecidableEq ι] in
theorem sequential_snoc (granted : event.act.isGranted = true) :
    sequential project disk (trace ++ [event])
      = ((sequential project disk trace).1
            ++ [(event.operation.perform project (sequential project disk trace).2).1],
          (event.operation.perform project (sequential project disk trace).2).2) := by
  rw [sequential, grants_snoc, if_pos granted, List.map_append, List.map_singleton, performAll_snoc]
  rfl

theorem getElem?_snoc {α : Type} {row : List α} {a : α} {index : Nat} (found : row[index]? = some a)
    (last : α) : (row ++ [last])[index]? = some a := by
  rw [List.getElem?_append_left (List.getElem?_eq_some_iff.1 found).1, found]

/-! ## Every moment of a run -/

/-- The process has the lock of the operation. -/
def System.IsIn (system : System ι) (process : ι) (operation : Operation) : Prop :=
  ∃ held work, system.At process operation (.holding held work)

/-- Nobody who holds a lock writes at the place. -/
def System.Quiet (home : Project) (system : System ι) (place : Path) : Prop :=
  ∀ process operation held work, system.At process operation (.holding held work) →
    operation.data home = place → operation.mode = .shared

/-- The run agrees with its operations performed one after the other.  An operation that holds its
lock is going to come to what it comes to there, and until then its data may differ. -/
structure Agrees (disk : Disk) (project home : Project) (trace : List (Event ι))
    (system : System ι) : Prop where
  issued : system.host.issued = (grants trace).length
  length : (sequential project disk trace).1.length = (grants trace).length
  noLocks : (sequential project disk trace).2.locks = []
  evolves : home.Evolves disk (sequential project disk trace).2.disk
  promised : ∀ process operation held work, system.At process operation (.holding held work) →
    (grants trace)[held.serial]?
        = some { process, job := (system.workers process).begun, operation, act := .granted } ∧
      (sequential project disk trace).1[held.serial]?
        = some (work.finish project system.host.disk).1
  owned : ∀ process operation held work, system.At process operation (.holding held work) →
    operation.mode = .exclusive →
    home.SameData (work.finish project system.host.disk).2 (sequential project disk trace).2.disk
      (operation.data home)
  quiet : ∀ place, home.IsData place → system.Quiet home place →
    home.SameData system.host.disk (sequential project disk trace).2.disk place
  released : ∀ event ∈ trace, ∀ outcome, event.act = .released outcome →
    ∃ serial : Nat, (grants trace)[serial]? = some { event with act := .granted } ∧
      (sequential project disk trace).1[serial]? = some outcome

omit [DecidableEq ι] in
theorem Agrees.initial : Agrees disk project home [] (System.initial disk jobs) where
  issued := rfl
  length := rfl
  noLocks := rfl
  evolves := .refl home disk
  promised _ _ _ _ works := by cases works
  owned _ _ _ _ works := by cases works
  quiet place _ _ := .refl home disk place
  released _ isIn := by cases isIn

/-- Where no lock is taken, the row stays.  Holders of locks have to have left to do what comes to
the same, and who gives a lock back has to have come to what was promised. -/
theorem Agrees.keep {worker : Worker} (agrees : Agrees disk project home trace system)
    (issued : host.issued = system.host.issued) (notGranted : event.act.isGranted = false)
    (holders : ∀ process operation held work',
      (system.update event.process host worker).At process operation (.holding held work') →
      ∃ work, system.At process operation (.holding held work) ∧
        ((system.update event.process host worker).workers process).begun
          = (system.workers process).begun ∧
        (work'.finish project host.disk).1 = (work.finish project system.host.disk).1 ∧
        home.SameData (work'.finish project host.disk).2
          (work.finish project system.host.disk).2 (operation.data home))
    (quiet : ∀ place, home.IsData place →
      (system.update event.process host worker).Quiet home place →
      home.SameData host.disk (sequential project disk trace).2.disk place)
    (released : ∀ outcome, event.act = .released outcome →
      ∃ serial : Nat, (grants trace)[serial]? = some { event with act := .granted } ∧
        (sequential project disk trace).1[serial]? = some outcome) :
    Agrees disk project home (trace ++ [event]) (system.update event.process host worker) := by
  have sameGrants : grants (trace ++ [event]) = grants trace := by
    rw [grants_snoc, notGranted, if_neg Bool.false_ne_true, List.append_nil]
  have sameRow : sequential project disk (trace ++ [event]) = sequential project disk trace := by
    rw [sequential, sequential, sameGrants]
  -- Without a new grant the row of runs that all parts speak about is the same.
  refine ⟨?_, ?_, ?_, ?_, ?_, ?_, ?_, ?_⟩
  · rw [sameGrants]
    exact issued.trans agrees.issued
  · rw [sameGrants, sameRow]
    exact agrees.length
  · rw [sameRow]
    exact agrees.noLocks
  · rw [sameRow]
    exact agrees.evolves
  · intro process operation held work' works
    obtain ⟨work, works', sameBegun, sameResult, _⟩ := holders process operation held work' works
    rw [sameGrants, sameRow, sameBegun]
    exact sameResult ▸ agrees.promised process operation held work works'
  · intro process operation held work' works exclusive
    obtain ⟨work, works', _, _, sameDisk⟩ := holders process operation held work' works
    rw [sameRow]
    exact sameDisk.trans (agrees.owned process operation held work works' exclusive)
  · intro place isData isQuiet
    rw [sameRow]
    exact quiet place isData isQuiet
  · intro other isIn outcome isReleased
    rw [sameGrants, sameRow]
    rcases List.mem_append.1 isIn with isIn | isNew
    · exact agrees.released other isIn outcome isReleased
    · cases List.mem_singleton.1 isNew
      exact released outcome isReleased

omit [DecidableEq ι] in
/-- What a holder of a lock has left to do comes to the same as long as its data stay. -/
theorem Tidy.finish_congr {process : ι} {held : HeldLock} {work : Work} {after : Disk}
    (tidy : Tidy disk project home system) (secluded : project.Secluded disk home)
    (works : system.At process operation (.holding held work))
    (evolves : home.Evolves system.host.disk after)
    (same : home.SameData system.host.disk after (operation.data home)) :
    (work.finish project after).1 = (work.finish project system.host.disk).1 ∧
      home.SameData (work.finish project after).2 (work.finish project system.host.disk).2
        (operation.data home) := by
  have furnished := tidy.furnished secluded works
  exact (confined_finish (tidy.holds _ _ _ _ works).serves).congr after system.host.disk
    (furnished.evolve evolves) furnished (furnished.compiles after evolves.agrees) same.symm

/-- A process without a lock fills in what is missing, or does nothing. -/
theorem Agrees.seek {worker : Worker} (agrees : Agrees disk project home trace system)
    (tidy : Tidy disk project home system) (secluded : project.Secluded disk home)
    (issued : host.issued = system.host.issued) (notGranted : event.act.isGranted = false)
    (notReleased : ∀ outcome, event.act ≠ .released outcome)
    (noLock : ∀ operation held work, ¬ system.At event.process operation (.holding held work))
    (noLock' : ∀ operation held work, worker.job ≠ some (operation, .holding held work))
    (evolves : home.Evolves system.host.disk host.disk)
    (same : ∀ place, home.IsData place → home.SameData system.host.disk host.disk place) :
    Agrees disk project home (trace ++ [event]) (system.update event.process host worker) := by
  refine agrees.keep issued notGranted ?_ ?_ fun outcome isReleased =>
    absurd isReleased (notReleased outcome)
  · intro process operation held work works
    rcases System.update_at_iff.1 works with ⟨_, works⟩ | ⟨isOther, works⟩
    · exact absurd works (noLock' operation held work)
    · refine ⟨work, works, ?_, tidy.finish_congr secluded works evolves (same _ operation.isData)⟩
      rw [System.update_of_ne isOther]
  · intro place isData isQuiet
    refine (same place isData).symm.trans (agrees.quiet place isData ?_)
    intro process operation held work works
    have other : process ≠ event.process := by
      rintro rfl
      exact noLock operation held work works
    exact isQuiet process operation held work ((System.update_at_of_ne other).2 works)

/-- A process with a lock does a part of its work. -/
theorem Agrees.work {process : ι} {todo : List Operation} {begun : Nat} {held : HeldLock}
    {work work' : Work} {act : Act} (agrees : Agrees disk project home trace system)
    (tidy : Tidy disk project home system) (secluded : project.Secluded disk home)
    (busy : system.workers process = { todo, job := some (operation, .holding held work), begun })
    (works : Works project system.host work act host work') :
    Agrees disk project home (trace ++ [{ process, job := begun, operation, act }])
      (system.update process host
        { todo, job := some (operation, .holding held work'), begun }) := by
  have here : system.At process operation (.holding held work) := by rw [System.At, busy]
  have holds := tidy.holds _ _ _ _ here
  have furnished := tidy.furnished secluded here
  obtain ⟨after, rfl, ⟨evolves, same⟩, sameFinish, _⟩ :=
    works.changes furnished tidy.locksFiles holds.serves
  refine agrees.keep rfl works.keeps_locks.1 ?_ ?_ fun outcome isReleased =>
    absurd isReleased (works.keeps_locks.2 outcome)
  · intro other operation' held' work'' works'
    rcases System.update_at_iff.1 works' with ⟨rfl, isNew⟩ | ⟨isOther, works'⟩
    · cases isNew
      refine ⟨work, here, ?_, congrArg Prod.fst sameFinish, ?_⟩
      · rw [System.update_self, busy]
      · rw [sameFinish]
        exact .refl home _ _
    · have holds' := tidy.holds _ _ _ _ works'
      refine ⟨work'', works', by rw [System.update_of_ne isOther],
        tidy.finish_congr secluded works' evolves (same _ operation'.isData fun sameData => ?_)⟩
      -- If the other one has the same data, it has the same lock, and both only read.
      have samePlace : held.place = held'.place := by
        rw [holds.place, holds'.place, Operation.data_eq_iff.1 sameData]
      have apart := tidy.apart _ _ _ _ _ _ _ _ (Ne.symm isOther) here works'
      rw [← holds.mode]
      exact (apart.shared samePlace).1
  · intro place isData isQuiet
    have isShared := isQuiet process operation held work' (System.update_at_self.2 rfl)
    refine (same place isData isShared).symm.trans (agrees.quiet place isData ?_)
    intro other operation' held' work'' works'
    by_cases isSelf : other = process
    · subst isSelf
      cases here.symm.trans works'
      exact isShared
    · exact isQuiet other operation' held' work'' ((System.update_at_of_ne isSelf).2 works')

/-- What one disk has made out of the first one, another one can still make. -/
theorem LockReady.admits {now other : Disk} (ready : LockReady now project home operation)
    (evolves : home.Evolves disk now) (evolves' : home.Evolves disk other) :
    Admits other project home operation where
  path := ready.path
  room := by
    have stands := ready.room
    unfold Disk.AcceptsDirectory
    rcases evolves'.room with same' | ⟨_, stands'⟩
    · rcases evolves.room with same | ⟨free, _⟩
      · exact .inr (same'.trans (same ▸ stands))
      · exact .inl (same'.trans free)
    · exact .inr stands'
  lockPath := ready.lockPath
  lock := by
    have isFile := ready.lock
    unfold Disk.AcceptsFile
    unfold Disk.holdsFile at *
    rcases evolves'.lock _ operation.isLock with same' | ⟨_, stands'⟩
    · rcases evolves.lock _ operation.isLock with same | ⟨free, _⟩
      · rw [same] at isFile
        rw [same']
        exact .inr isFile
      · exact .inl (same'.trans free)
    · rw [stands']
      exact .inr rfl

omit [DecidableEq ι] in
/-- An operation that finds its data as they are in the row comes to what it comes to there. -/
theorem Agrees.performs_next (event : Event ι) (agrees : Agrees disk project home trace system)
    (tidy : Tidy disk project home system) (secluded : project.Secluded disk home)
    (granted : event.act.isGranted = true)
    (ready : LockReady system.host.disk project home event.operation)
    (same : home.SameData system.host.disk (sequential project disk trace).2.disk
      (event.operation.data home)) :
    ∃ outcome after issued,
      sequential project disk (trace ++ [event])
        = ((sequential project disk trace).1 ++ [outcome], { disk := after, issued }) ∧
      home.Evolves disk after ∧
      outcome = (event.operation.work.finish project system.host.disk).1 ∧
      home.SameData (event.operation.work.finish project system.host.disk).2 after
        (event.operation.data home) ∧
      ∀ place, home.IsData place → (event.operation.data home = place →
          event.operation.mode = .shared) →
        home.SameData (sequential project disk trace).2.disk after place := by
  have secluded' := secluded.evolve agrees.evolves
  have admits := ready.admits tidy.evolves agrees.evolves
  have furnished : project.Furnished system.host.disk home :=
    ⟨secluded.evolve tidy.evolves, ready.path, ready.room⟩
  have furnished' := admits.furnished secluded'
  have begins : event.operation.work.Serves home event.operation := .begin event.operation
  -- In the row the operation still has to make its lock file, which its data do not notice.
  have evolves := agrees.evolves.trans (evolves_furnish event.operation)
  have compiles := (secluded.compiles _ tidy.evolves.agrees).trans
    (secluded.compiles _ evolves.agrees).symm
  obtain ⟨sameResult, sameDisk⟩ := (confined_finish begins).congr _ _ furnished furnished'
    compiles (same.trans (sameData_furnish event.operation.isData))
  obtain ⟨evolves', sameOther⟩ := begins.keeps furnished'
  refine ⟨_, _, (sequential project disk trace).2.issued + 1, ?_, evolves.trans evolves',
    sameResult.symm, sameDisk, ?_⟩
  · rw [sequential_snoc granted, Operation.perform_eq agrees.noLocks secluded' admits]
  · intro place isData shared
    exact (sameData_furnish isData).trans (sameOther place isData shared)

/-- A process takes its lock: its operation is the next in the row. -/
theorem Agrees.grant {process : ι} {todo : List Operation} {begun : Nat} {place : Path}
    (agrees : Agrees disk project home trace system) (tidy : Tidy disk project home system)
    (secluded : project.Secluded disk home)
    (busy : system.workers process
      = { todo, job := some (operation, .seeking (.trying place)), begun })
    (free : system.host.isContended place operation.mode = false)
    (isHost : host = { system.host with
      locks := ⟨place, operation.mode, system.host.issued⟩ :: system.host.locks
      issued := system.host.issued + 1 }) :
    Agrees disk project home (trace ++ [{ process, job := begun, operation, act := .granted }])
      (system.update process host
        { todo
          job := some (operation,
            .holding ⟨place, operation.mode, system.host.issued⟩ operation.work)
          begun }) := by
  have here : system.At process operation (.seeking (.trying place)) := by rw [System.At, busy]
  obtain ⟨rfl, ready⟩ := tidy.ready _ _ _ here
  obtain ⟨outcome, after, issued, row, evolves, isPromised, sameOwn, sameOther⟩ :=
    agrees.performs_next { process, job := begun, operation, act := .granted } tidy
      secluded rfl ready (agrees.quiet _ operation.isData fun _ _ _ _ works same =>
        (tidy.shared_of_free free works same.symm).2)
  have grants_eq : grants (trace ++ [{ process, job := begun, operation, act := .granted }])
      = grants trace ++ [{ process, job := begun, operation, act := .granted }] :=
    grants_snoc _
  subst isHost
  -- The number of the lock is the place of the operation in the row.
  refine ⟨?_, ?_, ?_, ?_, ?_, ?_, ?_, ?_⟩
  · rw [grants_eq, List.length_append, List.length_singleton, ← agrees.issued]
    rfl
  · rw [grants_eq, row, List.length_append, List.length_append, agrees.length]
    rfl
  · rw [row]
  · rw [row]
    exact evolves
  · -- The process is promised what its operation comes to in the row, and the others keep theirs.
    intro other operation' held work works
    rw [grants_eq, row]
    rcases System.update_at_iff.1 works with ⟨rfl, isNew⟩ | ⟨isOther, works⟩
    · cases isNew
      rw [System.update_self, isPromised]
      constructor
      · rw [agrees.issued]
        exact List.getElem?_concat_length ..
      · rw [agrees.issued, ← agrees.length]
        exact List.getElem?_concat_length ..
    · obtain ⟨taken, promised⟩ := agrees.promised other operation' held work works
      rw [System.update_of_ne isOther]
      exact ⟨getElem?_snoc taken _, getElem?_snoc promised _⟩
  · intro other operation' held work works exclusive
    rw [row]
    rcases System.update_at_iff.1 works with ⟨rfl, isNew⟩ | ⟨_, works⟩
    · cases isNew
      exact sameOwn
    · exact (agrees.owned other operation' held work works exclusive).trans
        (sameOther _ operation'.isData fun same => (tidy.shared_of_free free works same).1)
  · -- Nobody is about to change the data, so that the new operation at most reads them.
    intro data isData isQuiet
    rw [row]
    have shared := isQuiet process operation _ _ (System.update_at_self.2 rfl)
    refine (agrees.quiet data isData ?_).trans (sameOther data isData shared)
    intro other operation' held work works
    have isOther : other ≠ process := by
      rintro rfl
      cases here.symm.trans works
    exact isQuiet other operation' held work ((System.update_at_of_ne isOther).2 works)
  · intro other isIn outcome' isReleased
    rw [grants_eq, row]
    rcases List.mem_append.1 isIn with isIn | isNew
    · obtain ⟨serial, taken, came⟩ := agrees.released other isIn outcome' isReleased
      exact ⟨serial, getElem?_snoc taken _, getElem?_snoc came _⟩
    · cases List.mem_singleton.1 isNew
      cases isReleased

/-- A process gives its lock back, and its operation came to what it comes to in the row. -/
theorem Agrees.release {process : ι} {todo : List Operation} {begun : Nat} {held : HeldLock}
    {outcome : Outcome} (agrees : Agrees disk project home trace system)
    (busy : system.workers process
      = { todo, job := some (operation, .holding held (.release outcome)), begun }) :
    Agrees disk project home
      (trace ++ [{ process, job := begun, operation, act := .released outcome }])
      (system.update process (system.host.release held) { todo, begun }) := by
  have here : system.At process operation (.holding held (.release outcome)) := by
    rw [System.At, busy]
  refine agrees.keep rfl rfl ?_ ?_ ?_
  · intro other operation' held' work works
    rcases System.update_at_iff.1 works with ⟨_, isNew⟩ | ⟨isOther, works⟩
    · cases isNew
    · rw [System.update_of_ne isOther]
      exact ⟨work, works, rfl, rfl, .refl home _ _⟩
  · intro place isData isQuiet
    by_cases isShared : operation.data home = place → operation.mode = .shared
    · refine agrees.quiet place isData fun other operation' held' work' works => ?_
      by_cases isSelf : other = process
      · subst isSelf
        cases here.symm.trans works
        exact isShared
      · exact isQuiet other operation' held' work' ((System.update_at_of_ne isSelf).2 works)
    · -- What the process had for itself is as it was promised, now that nothing is left to do.
      obtain ⟨rfl, notShared⟩ := Classical.not_imp.1 isShared
      have exclusive : operation.mode = .exclusive := by
        cases mode : operation.mode with
        | exclusive => rfl
        | shared => exact absurd mode notShared
      exact agrees.owned _ _ _ _ here exclusive
  · rintro _ ⟨⟩
    have promised := agrees.promised _ _ _ _ here
    rw [busy] at promised
    exact ⟨held.serial, promised⟩

theorem Agrees.step (agrees : Agrees disk project home trace system)
    (tidy : Tidy disk project home system) (secluded : project.Secluded disk home)
    (step : Step project system event system') :
    Agrees disk project home (trace ++ [event]) system' := by
  cases step with
  | @begins process operation todo begun waiting =>
    refine agrees.seek tidy secluded rfl rfl (fun _ => nofun) ?_ ?_ (.refl home _)
      fun place _ => .refl home _ place
    · intro operation' held work works
      rw [System.At, waiting] at works
      cases works
    · intro operation' held work works
      cases operation <;> cases works
  | @advances process operation todo begun stage act host next busy advances =>
    cases advances with
    | @approaches _ approach act next approaches =>
      have here : system.At process operation (.seeking approach) := by rw [System.At, busy]
      have keepsLocks := approaches.keeps_locks
      obtain ⟨after, rfl, evolves, same, _⟩ := approaches.changes (secluded.evolve tidy.evolves)
        tidy.locksFiles (tidy.ready _ _ _ here)
      refine agrees.seek tidy secluded rfl keepsLocks.1 keepsLocks.2 ?_ ?_ evolves same
      · intro operation' held work works
        cases here.symm.trans works
      · intro operation' held work works
        cases next <;> cases works
    | granted free => exact agrees.grant tidy secluded busy free rfl
    | works works => exact agrees.work tidy secluded busy works
    | released => exact agrees.release busy

theorem Run.agrees (run : Run project (System.initial disk jobs) trace system)
    (secluded : project.Secluded disk home) : Agrees disk project home trace system := by
  induction run with
  | start => exact .initial
  | step run step ih => exact ih.step (run.tidy secluded) secluded step

/-- Whatever steps the processes take, a lock is held by one process alone or by processes that
load.  An operation that ends without its lock does nothing that needs one.  Every other one comes
to what it comes to in the row of all operations in the order of their locks, and so do the state
file and the published pages where nobody is about to change them. -/
theorem lock_discipline (secluded : project.Secluded disk home)
    (run : Run project (System.initial disk jobs) trace system) :
    (∀ process other operation operation', process ≠ other → system.IsIn process operation →
      system.IsIn other operation' → operation.lockPath project = operation'.lockPath project →
      operation = .load ∧ operation' = .load) ∧
    (∀ event ∈ trace, ∀ other ∈ trace, event.process = other.process → event.job = other.job →
      ∀ outcome, event.act = .refused outcome → ¬ other.act.NeedsLock) ∧
    (grants trace).Nodup ∧
    (∀ event ∈ trace, ∀ outcome, event.act = .released outcome →
      ∃ serial : Nat, (grants trace)[serial]? = some { event with act := .granted } ∧
        (sequential project disk trace).1[serial]? = some outcome) ∧
    ∀ place, place = home.stateFile ∨ place = home.live → system.Quiet home place →
      system.host.disk.SameAt (sequential project disk trace).2.disk place := by
  have tidy := run.tidy secluded
  have agrees := run.agrees secluded
  have numbered := run.numbered
  refine ⟨?_, numbered.refused, numbered.distinct, agrees.released, fun place isData isQuiet =>
    (agrees.quiet place isData isQuiet).sameAt⟩
  rintro process other operation operation' different ⟨held, work, works⟩ ⟨held', work', works'⟩
    sameLock
  have holds := tidy.holds _ _ _ _ works
  have holds' := tidy.holds _ _ _ _ works'
  have samePlace : held.place = held'.place := by
    rw [operation.lockPath_eq, operation'.lockPath_eq] at sameLock
    rw [holds.place, holds'.place, operation.lockPath_eq, operation'.lockPath_eq,
      List.append_cancel_left sameLock]
  obtain ⟨shared, shared'⟩ := (tidy.apart _ _ _ _ _ _ _ _ different works works').shared samePlace
  rw [holds.mode] at shared
  rw [holds'.mode] at shared'
  exact ⟨eq_load_of_shared shared, eq_load_of_shared shared'⟩

/-- A project without pages, on which others have been at work before. -/
def sharedSite : Disk :=
  ((((Disk.empty.put [Project.templatesName] .directory).put [Project.stateName] .directory).put
    [Project.stateName, "build.lock".toList] (.file [])).put
    [Project.stateName, "state.lock".toList] (.file []))

theorem sharedSite_secluded : Project.Secluded sharedSite ⟨[]⟩ ⟨[]⟩ where
  inside := rfl
  reached := ⟨_, .arrived⟩
  noLink place _ target := by
    have linkFree : sharedSite.LinkFree [] := by decide
    exact linkFree.not_link List.nil_prefix target
  compiles other agrees := by
    have isTree : sharedSite.IsTree := by decide
    have linkFree : sharedSite.LinkFree [] := by decide
    have spelled : ∀ disk : Disk, disk.canonical [] = .ok [] := fun disk => by cbv
    have shares : sharedSite.SharesRoot other [] [] Project.rooms :=
      ⟨agrees, linkFree, ⟨_, .arrived, .arrived⟩, (spelled _).trans (spelled _).symm⟩
    have walked : Project.walk sharedSite (Project.templates ⟨[]⟩) = .ok ⟨[], none⟩ := by cbv
    have reads : Project.ReadsOutside sharedSite ⟨[]⟩ Project.rooms := by
      intro _ _ page _ _ _ isPage _
      have isListed := (Project.mem_pages_of_walk isTree walked).2 isPage
      cases isListed
    have missing : sharedSite.isFile (Project.configFile ⟨[]⟩) = false := by cbv
    have configured : Project.config sharedSite ⟨[]⟩ = .ok {} := by
      rw [Project.config, missing]
      rfl
    have notReserved : Project.checkReserved sharedSite (Project.templates ⟨[]⟩) = .ok () := by cbv
    have prepared : ∀ maxDepth, Compiler.forProject sharedSite [] maxDepth
        = .ok ⟨sharedSite, [], maxDepth⟩ := by
      intro maxDepth
      rw [Compiler.forProject, spelled]
      rfl
    have compiles : Project.compiledSite sharedSite ⟨[]⟩ = .ok [] :=
      Project.compiledSite_eq_ok.2 ⟨_, configured, notReserved,
        Project.compilePages_eq_ok_iff.2 ⟨_, _, prepared _, walked, fun _ _ => rfl, rfl⟩, by decide⟩
    rw [compiles]
    exact Project.compiledSite_of_sharesRoot shares (by decide) isTree (by decide) reads compiles

/-- Where everything is there already, nothing changes on the way to the lock. -/
theorem Run.approach {first : System ι} {process : ι} {todo : List Operation} {begun : Nat}
    (run : Run project first trace system)
    (waiting : system.workers process = { todo := operation :: todo, begun })
    (secluded : project.Secluded system.host.disk home)
    (locksFiles : system.host.LocksFiles home)
    (ready : LockReady system.host.disk project home operation) :
    ∃ later, trace <+: later ∧ Run project first later
      (system.update process system.host
        { todo
          job := some (operation, .seeking (.trying (operation.lockPath home)))
          begun := begun + 1 }) := by
  have sameHost : system.host.withDisk system.host.disk = system.host :=
    locksFiles.withDisk_eq (.refl home _)
  have made := secluded.makeDirectories_eq_ok.2
    ⟨ready.path, .inr ready.room, (Disk.fill_of_stands ready.room).symm⟩
  have prepared : BuildState.prepare system.host project.stateFile = (.ok (), system.host) := by
    rw [BuildState.prepare_eq, made]
    exact congrArg _ sameHost
  have filled : system.host.disk.fill (operation.lockPath home) (.file []) = system.host.disk := by
    cases stands : system.host.disk.entry? (operation.lockPath home) with
    | none =>
      have isFile := ready.lock
      simp [Disk.holdsFile, stands] at isFile
    | some entry => exact Disk.fill_of_stands stands
  have opened := Approaches.opened ((openToWrite_eq_ok secluded ready.room).2
    ⟨ready.lockPath, .inr ready.lock, rfl, filled.symm⟩)
  have entered := Approaches.entered (operation.lockPath_parent.symm ▸ made)
  rw [sameHost] at opened entered
  obtain ⟨later, isFront, run'⟩ : ∃ later, trace <+: later ∧ Run project first later
      (system.update process system.host
        { todo, job := some (operation, .seeking .entering), begun := begun + 1 }) := by
    have begins := run.step (.begins waiting)
    -- A build enters at once, the others prepare the directory of the state first.
    cases operation with
    | build => exact ⟨_, List.prefix_append _ _, begins⟩
    | load | save | record =>
      have prepares := begins.step (.advances System.update_self (.approaches (.prepared prepared)))
      rw [System.update_update] at prepares
      exact ⟨_, (List.prefix_append _ _).trans (List.prefix_append _ _), prepares⟩
  have opens := (run'.step (.advances System.update_self (.approaches entered))).step
    (.advances System.update_self (.approaches opened))
  rw [System.update_update, System.update_update] at opens
  exact ⟨_, (isFront.trans (List.prefix_append _ _)).trans (List.prefix_append _ _), opens⟩

/-- With its lock, a process records a build without waiting for anybody. -/
theorem Run.record {first : System ι} {process : ι} {todo : List Operation} {begun : Nat}
    {held : HeldLock} {latest : BuildRecord} (run : Run project first trace system)
    (busy : system.workers process
      = { todo, job := some (operation, .holding held (.revise latest)), begun }) :
    ∃ later host outcome, trace <+: later ∧
      { process, job := begun, operation, act := .released outcome } ∈ later ∧
      Run project first later (system.update process host { todo, begun }) := by
  have revised := run.step (.advances busy (.works .revise))
  cases isStaged : BuildState.stageFile system.host.disk project.stateFile
      (project.revised system.host.disk latest) with
  | mk result disk =>
  cases result with
  | error error =>
    have released := (revised.step
      (.advances System.update_self (.works (.notStaged isStaged)))).step
      (.advances System.update_self .released)
    simp only [System.update_update] at released
    refine ⟨_, _, _, ?_, List.mem_append_right _ (List.mem_singleton_self _), released⟩
    simp only [List.append_assoc, List.prefix_append]
  | ok temporary =>
    have released := ((revised.step
      (.advances System.update_self (.works (.stage isStaged)))).step
      (.advances System.update_self (.works .rename))).step
      (.advances System.update_self .released)
    simp only [System.update_update] at released
    refine ⟨_, _, _, ?_, List.mem_append_right _ (List.mem_singleton_self _), released⟩
    simp only [List.append_assoc, List.prefix_append]

/-- A record of a build without pages. -/
def sharedRecord : BuildRecord where
  success := true
  startedAt := ⟨⟨2025, 1, 1, by decide, by decide, by decide⟩,
    ⟨0, 0, 0, 0, by decide, by decide, by decide, by decide⟩⟩
  finishedAt := ⟨⟨2025, 1, 1, by decide, by decide, by decide⟩,
    ⟨0, 0, 1, 0, by decide, by decide, by decide, by decide⟩⟩
  durationMs := 1000
  files := 0
  error := none

/-- One process records a build, and another one loads the state. -/
def sharedJobs : Bool → List Operation
  | false => [.record sharedRecord]
  | true => [.load]

theorem sharedSite_ready (operation : Operation) :
    LockReady sharedSite ⟨[]⟩ ⟨[]⟩ operation := by
  have load : LockReady sharedSite ⟨[]⟩ ⟨[]⟩ .load :=
    ⟨⟨by decide, by decide⟩, by decide, by decide⟩
  cases operation with
  | load | save | record => exact ⟨load.toRoomReady, load.lockPath, load.lock⟩
  | build => exact ⟨load.toRoomReady, by decide, by decide⟩

/-- The lock of the record. -/
def sharedLock : HeldLock where
  place := Operation.lockPath ⟨[]⟩ (.record sharedRecord)
  mode := .exclusive
  serial := 0

/-- The processes while the record has its lock. -/
def sharedSystem : System Bool :=
  (System.initial sharedSite sharedJobs).update false
    { disk := sharedSite, locks := [sharedLock], issued := 1 }
    { todo := [], job := some (.record sharedRecord, .holding sharedLock (.revise sharedRecord)),
      begun := 1 }

theorem sharedSystem_run : ∃ trace,
    Run ⟨[]⟩ (System.initial sharedSite sharedJobs) trace sharedSystem := by
  have begins : Run ⟨[]⟩ (System.initial sharedSite sharedJobs) [] _ := .start
  have waiting : (System.initial sharedSite sharedJobs).workers false
      = { todo := [.record sharedRecord] } := rfl
  obtain ⟨_, _, tries⟩ := begins.approach waiting sharedSite_secluded
    (fun _ isHeld => absurd isHeld List.not_mem_nil) (sharedSite_ready _)
  have granted := tries.step (.advances System.update_self (.granted rfl))
  rw [System.update_update] at granted
  exact ⟨_, granted⟩

/-- The load takes too long while the record has its lock. -/
theorem sharedSystem_discipline : ∃ (trace : List (Event Bool)) (system : System Bool),
    Run ⟨[]⟩ (System.initial sharedSite sharedJobs) trace system ∧
      (∃ event ∈ trace, event.process = true ∧ ∃ outcome, event.act = .refused outcome) ∧
      (∃ event ∈ trace, event.process = false ∧ ∃ outcome, event.act = .released outcome ∧
        ∃ serial : Nat, (sequential ⟨[]⟩ sharedSite trace).1[serial]? = some outcome) ∧
      system.host.disk.SameAt (sequential ⟨[]⟩ sharedSite trace).2.disk
        (Project.stateFile ⟨[]⟩) := by
  have locksFiles : sharedSystem.host.LocksFiles ⟨[]⟩ := by
    intro held isHeld
    cases List.mem_singleton.1 isHeld
    exact ⟨(Operation.record sharedRecord).isLock, (sharedSite_ready (.record sharedRecord)).lock⟩
  obtain ⟨_, records⟩ := sharedSystem_run
  have waiting : sharedSystem.workers true = { todo := [.load] } := rfl
  obtain ⟨_, _, tries⟩ := records.approach waiting sharedSite_secluded locksFiles
    (sharedSite_ready _)
  have refused := tries.step (.advances System.update_self (.approaches (.timedOut rfl)))
  rw [System.update_update] at refused
  obtain ⟨_, host, _, isFront, isReleased, released⟩ := refused.record
    ((System.update_of_ne (by decide)).trans System.update_self)
  obtain ⟨_, _, _, outcomes, final⟩ := lock_discipline sharedSite_secluded released
  refine ⟨_, _, released, ?_, ?_, final _ (.inl rfl) ?_⟩
  · exact ⟨_, isFront.subset (List.mem_append_right _ (List.mem_singleton_self _)), rfl, _, rfl⟩
  · obtain ⟨serial, _, outcome⟩ := outcomes _ isReleased _ rfl
    exact ⟨_, isReleased, rfl, _, rfl, serial, outcome⟩
  · intro process operation held work works
    rcases System.update_at_iff.1 works with ⟨_, isNew⟩ | ⟨notFalse, works⟩
    · cases isNew
    · rw [Bool.eq_true_of_not_eq_false notFalse] at works
      cases System.update_at_self.1 works

end StaticSite
