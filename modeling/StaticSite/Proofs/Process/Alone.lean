import Mathlib
import StaticSite.Proofs.Process.Sections

/-!
# A process without others

The steps of an operation are those of the operation itself: a process that is not disturbed
comes to just what the whole operation comes to on the host, and leaves the same host, whatever
locks are held there.
-/

namespace StaticSite

variable {ι : Type} [DecidableEq ι] {project : Project} {host host' after : Host} {disk made : Disk}
  {operation : Operation} {stage : Stage} {outcome : Outcome} {first system : System ι}
  {process : ι} {trace : List (Event ι)} {todo : List Operation} {begun : Nat}

/-- The process can bring its operation to this end with steps of its own. -/
inductive Ends (project : Project) (operation : Operation) :
    Host → Stage → Outcome → Host → Prop where
  | refused {host after : Host} {stage : Stage} {outcome : Outcome}
      (last : Advances project operation host stage (.refused outcome) after none) :
      Ends project operation host stage outcome after
  | released {host after : Host} {stage : Stage} {outcome : Outcome}
      (last : Advances project operation host stage (.released outcome) after none) :
      Ends project operation host stage outcome after
  | step {host between after : Host} {stage next : Stage} {act : Act} {outcome : Outcome}
      (advances : Advances project operation host stage act between (some next))
      (ends : Ends project operation between next outcome after) :
      Ends project operation host stage outcome after

/-- Each lock is on a file that is there. -/
def Host.Sound (host : Host) : Prop :=
  ∀ held ∈ host.locks, host.disk.holdsFile held.place = true

/-- A change that only adds to the disk loses no lock. -/
theorem Host.Sound.withDisk_eq (sound : host.Sound) (within : host.disk.Within disk) :
    host.withDisk disk = { host with disk } := by
  have kept : host.locks.filter (fun held => disk.holdsFile held.place) = host.locks := by
    refine List.filter_eq_self.2 fun held isHeld => ?_
    obtain ⟨bytes, stands⟩ := Disk.holdsFile_eq_true.1 (sound held isHeld)
    exact Disk.holdsFile_eq_true.2 ⟨bytes, within _ _ stands⟩
  rw [Host.withDisk, kept]

theorem Host.sound_withDisk (host : Host) (disk : Disk) : (host.withDisk disk).Sound :=
  fun _ isHeld => (List.mem_filter.1 isHeld).2

theorem holdsFile_of_openToWrite {path place : Path}
    (opened : disk.openToWrite path = .ok (place, made)) : made.holdsFile place = true := by
  obtain ⟨target, _, opened⟩ := Except.bind_eq_ok.1 opened
  unfold Disk.holdsFile
  split at opened
  · next free =>
    cases opened
    rw [Disk.entry?_put_self (Disk.nonempty_of_free free)]
  · next stands =>
    cases opened
    rw [stands]
  · cases opened

/-- On the way to the lock the steps are those of taking it. -/
theorem ends_of_acquire (project : Project) (operation : Operation) (sound : host.Sound) :
    (∀ error after, host.acquire (operation.lockPath project) operation.mode operation.description
        = (.error error, after) →
      Ends project operation host (.seeking .entering) (operation.refused error) after) ∧
    ∀ held ready, host.acquire (operation.lockPath project) operation.mode operation.description
        = (.ok held, ready) →
      ready.Sound ∧ ∀ outcome after,
        Ends project operation ready (.holding held operation.work) outcome after →
        Ends project operation host (.seeking .entering) outcome after := by
  unfold Host.acquire
  cases makes : host.disk.makeDirectories (operation.lockPath project).parent with
  | mk result disk =>
  cases result with
  | error fault =>
    refine ⟨?_, fun held ready impossible => by cases impossible⟩
    rintro _ _ ⟨⟩
    exact .refused (.approaches (.notEntered makes))
  | ok _ =>
    have within : host.disk.Within disk := by
      have grows := Disk.makeDirectories_grows host.disk (operation.lockPath project).parent
      rw [makes] at grows
      exact grows.within
    have entered : Advances project operation host (.seeking .entering) .entered
        (host.withDisk disk) (some (.seeking .opening)) := .approaches (.entered makes)
    cases opens : disk.openToWrite (operation.lockPath project) with
    | error fault =>
      simp only [Fault.check, Except.ok_bind, opens]
      refine ⟨?_, fun held ready impossible => by cases impossible⟩
      rintro _ _ ⟨⟩
      exact .step entered (.refused (.approaches (.notOpened opens)))
    | ok opened =>
      obtain ⟨place, made⟩ := opened
      have opened : Advances project operation (host.withDisk disk) (.seeking .opening) .opened
          ((host.withDisk disk).withDisk made) (some (.seeking (.trying place))) :=
        .approaches (.opened opens)
      have within' : disk.Within made := (Disk.openToWrite_grows opens).within
      -- The disk changes in two steps here and in one there.  Neither loses a lock.
      have sameHost : (host.withDisk disk).withDisk made = host.withDisk made := by
        rw [sound.withDisk_eq within, sound.withDisk_eq (within.trans within')]
        exact Host.Sound.withDisk_eq (sound.withDisk_eq within ▸ host.sound_withDisk disk) within'
      rw [sameHost] at opened
      simp only [Fault.check, Except.ok_bind, opens]
      cases contended : (host.withDisk made).isContended place operation.mode with
      | true =>
        simp only [if_true]
        refine ⟨?_, fun held ready impossible => by cases impossible⟩
        rintro _ _ ⟨⟩
        exact .step entered (.step opened (.refused (.approaches (.timedOut contended))))
      | false =>
        simp only [Bool.false_eq_true, if_false]
        refine ⟨fun error after impossible => (by cases impossible), ?_⟩
        rintro _ _ ⟨⟩
        refine ⟨?_, fun outcome after ends =>
          .step entered (.step opened (.step (.granted contended) ends))⟩
        intro held isHeld
        rcases List.mem_cons.1 isHeld with rfl | isHeld
        · exact holdsFile_of_openToWrite opens
        · exact host.sound_withDisk made held isHeld

/-- The outcome of an operation, from what came of its lock. -/
def Operation.locked {α : Type} (operation : Operation) (wrap : α → Outcome) :
    Except LockError α → Outcome
  | .error error => operation.refused error
  | .ok result => wrap result

/-- With the lock the steps are those of the work. -/
theorem ends_of_withLock {α : Type} (project : Project) (operation : Operation)
    (work : Host → α × Host) (wrap : α → Outcome) (sound : host.Sound)
    (works : ∀ held ready, ready.Sound → Ends project operation ready
      (.holding held operation.work) (wrap (work ready).1) ((work ready).2.release held)) :
    let locked := host.withLock (operation.lockPath project) operation.mode
      operation.description work
    Ends project operation host (.seeking .entering) (operation.locked wrap locked.1) locked.2 := by
  obtain ⟨refused, granted⟩ := ends_of_acquire project operation sound
  unfold Host.withLock
  cases acquired : host.acquire (operation.lockPath project) operation.mode
      operation.description with
  | mk result ready =>
  cases result with
  | error error => exact refused error ready acquired
  | ok held =>
    obtain ⟨soundReady, ends⟩ := granted held ready acquired
    exact ends _ _ (works held ready soundReady)

/-- An operation that makes the directory of the state file comes to what it comes to with the
lock, unless that fails. -/
theorem ends_of_prepare (starts : operation.start = .seeking .preparing)
    (ends : ∀ ready, ready.Sound → BuildState.prepare host project.stateFile = (.ok (), ready) →
      Ends project operation ready (.seeking .entering) outcome after)
    (fails : ∀ error ready, BuildState.prepare host project.stateFile = (.error error, ready) →
      operation.failed error = outcome ∧ ready = after) :
    Ends project operation host operation.start outcome after := by
  rw [starts]
  cases prepared : BuildState.prepare host project.stateFile with
  | mk result ready =>
  cases result with
  | error error =>
    obtain ⟨rfl, rfl⟩ := fails error ready prepared
    exact .refused (.approaches (.unprepared prepared))
  | ok _ =>
    refine .step (.approaches (.prepared prepared)) (ends ready ?_ prepared)
    rw [BuildState.prepare_eq] at prepared
    obtain rfl := (Prod.mk.inj prepared).2
    exact host.sound_withDisk _

/-- Where the temporary file cannot be written, it is not named either. -/
theorem ends_of_writeFile (held : HeldLock) (ready : Host) (state : BuildState) :
    Ends project operation ready (.holding held (.stage state))
      (.written (BuildState.writeFile ready project.stateFile state).1)
      ((BuildState.writeFile ready project.stateFile state).2.release held) := by
  unfold BuildState.writeFile
  cases staged : BuildState.stageFile ready.disk project.stateFile state with
  | mk result disk =>
  cases result with
  | error error => exact .step (.works (.notStaged staged)) (.released .released)
  | ok temporary =>
    exact .step (.works (.stage staged)) (.step (.works .rename) (.released .released))

theorem ends_of_update (operation : Operation) (writes : operation.Writes)
    (next : Disk → BuildState)
    (works : ∀ held ready, Ends project operation ready (.holding held operation.work)
      (.written (BuildState.writeFile ready project.stateFile (next ready.disk)).1)
      ((BuildState.writeFile ready project.stateFile (next ready.disk)).2.release held)) :
    Ends project operation host operation.start
      (.written (BuildState.update host project.stateFile next).1)
      (BuildState.update host project.stateFile next).2 := by
  obtain ⟨lockPath, mode, description⟩ := writes.lock_eq
  have starts : operation.start = .seeking .preparing := by
    cases operation <;> first | rfl | cases writes
  have failed : ∀ error, operation.failed error = .written (.error error) := by
    cases operation <;> first | exact fun _ => rfl | cases writes
  refine ends_of_prepare starts (fun ready sound prepared => ?_) fun error ready prepared => ?_
  · have ends := ends_of_withLock project operation
      (fun host => BuildState.writeFile host project.stateFile (next host.disk)) .written sound
      fun held ready _ => works held ready
    rw [lockPath, mode, description] at ends
    simp only [BuildState.update, prepared]
    cases locked : ready.withLock (BuildState.lockFile project.stateFile) .exclusive
        "state update".toList fun host =>
          BuildState.writeFile host project.stateFile (next host.disk) with
    | mk result left =>
    rw [locked] at ends
    cases result with
    | ok written => exact ends
    | error error => cases operation <;> first | exact ends | cases writes
  · simp only [BuildState.update, prepared, failed]
    exact ⟨trivial, trivial⟩

/-- An operation that is not disturbed takes steps to what it comes to as a whole. -/
theorem Operation.ends (operation : Operation) (sound : host.Sound) :
    Ends project operation host operation.start (operation.perform project host).1
      (operation.perform project host).2 := by
  -- The steps of each operation are those between taking its lock and giving it back.
  cases operation with
  | load =>
    refine ends_of_prepare rfl (fun ready sound prepared => ?_) fun error ready prepared => ?_
    · have ends := ends_of_withLock project .load
        (fun host => (BuildState.readFile host.disk project.stateFile, host)) .loaded sound
        fun held ready _ => .step (.works .read) (.released .released)
      simp only [perform, BuildState.load, prepared]
      dsimp only [lockPath, mode, description] at ends
      cases locked : ready.withLock (BuildState.lockFile project.stateFile) .shared
          "state read".toList fun host =>
            (BuildState.readFile host.disk project.stateFile, host) with
      | mk result left =>
      rw [locked] at ends
      cases result <;> exact ends
    · simp only [perform, BuildState.load, prepared]
      exact ⟨rfl, rfl⟩
  | save state =>
    exact ends_of_update (.save state) trivial (fun _ => state) fun held ready =>
      ends_of_writeFile held ready state
  | record latest =>
    exact ends_of_update (.record latest) trivial (project.revised · latest) fun held ready =>
      .step (.works .revise) (ends_of_writeFile held ready _)
  | build =>
    have ends := ends_of_withLock project .build (Project.buildOn · project) .built sound ?_
    · simp only [perform, Project.buildLocked]
      dsimp only [lockPath, mode, description] at ends
      cases locked : host.withLock project.buildLock .exclusive "site build".toList
          (Project.buildOn · project) with
      | mk result left =>
      rw [locked] at ends
      cases result <;> exact ends
    · intro held ready sound
      unfold Project.buildOn
      cases compiles : project.compiledSite ready.disk with
      | error error =>
        -- The build ends without a second step, and the host stays as it is.
        have unchanged :
            (ready.afterReplacing project.live (project.build ready.disk)).2 = ready := by
          rw [Project.build_of_not_compiled compiles]
          exact sound.withDisk_eq (.refl _)
        rw [unchanged, Project.build_of_not_compiled compiles]
        exact .step (.works (.notCompiled compiles)) (.released .released)
      | ok compiled =>
        rw [Project.build_of_compiled compiles]
        exact .step (.works (.compile compiles)) (.step (.works .swap) (.released .released))

/-- The steps that end an operation are steps of the system. -/
theorem Run.finish (run : Run project first trace system)
    (busy : system.workers process = { todo, job := some (operation, stage), begun })
    (ends : Ends project operation host stage outcome after) (sameHost : system.host = host) :
    ∃ earlier act, trace <+: earlier ∧ (act = .refused outcome ∨ act = .released outcome) ∧
      Run project first (earlier ++ [{ process, job := begun, operation, act }])
        (system.update process after { todo, begun }) := by
  induction ends generalizing system trace with
  | refused last =>
    subst sameHost
    exact ⟨trace, _, List.prefix_rfl, .inl rfl, run.step (.advances busy last)⟩
  | released last =>
    subst sameHost
    exact ⟨trace, _, List.prefix_rfl, .inr rfl, run.step (.advances busy last)⟩
  | step advances _ ih =>
    subst sameHost
    obtain ⟨earlier, act, isFront, isLast, run'⟩ :=
      ih (run.step (.advances busy advances)) System.update_self rfl
    rw [System.update_update] at run'
    exact ⟨earlier, act, (List.prefix_append _ _).trans isFront, isLast, run'⟩

/-- A process that is not disturbed comes to what its operation comes to as a whole, on any host. -/
theorem Run.perform (run : Run project first trace system)
    (waiting : system.workers process = { todo := operation :: todo, begun })
    (sound : system.host.Sound) :
    ∃ earlier act, trace <+: earlier ∧
      (act = .refused (operation.perform project system.host).1 ∨
        act = .released (operation.perform project system.host).1) ∧
      Run project first (earlier ++ [{ process, job := begun + 1, operation, act }])
        (system.update process (operation.perform project system.host).2
          { todo, begun := begun + 1 }) := by
  have begins := run.step (.begins waiting)
  obtain ⟨earlier, act, isFront, isLast, run'⟩ :=
    begins.finish System.update_self (operation.ends sound) rfl
  rw [System.update_update] at run'
  exact ⟨earlier, act, (List.prefix_append _ _).trans isFront, isLast, run'⟩

end StaticSite
