import Mathlib.Logic.Function.Basic
import StaticSite.BuildState.Store
import StaticSite.Proofs.Project.Rebuilding

/-!
# Processes on one project

Several processes work on one project.  Each performs operations one after the other, and takes
them step by step: it makes the directory of the lock file, opens the file, tries to lock it until
that succeeds or takes too long, does the work of the operation and gives the lock back.  Between
two steps of one process the others may take any number of theirs.
-/

namespace StaticSite

/-! ## Operations -/

/-- What a process can be asked to do. -/
inductive Operation where
  | load
  | save (state : BuildState)
  | record (latest : BuildRecord)
  | build

/-- What an operation comes to. -/
inductive Outcome where
  | loaded (result : Except SiteError BuildState)
  | written (result : Except SiteError Unit)
  | built (result : Except SiteError BuildReport)

namespace Operation

/-- The whole operation, with nothing between its steps. -/
def perform (project : Project) (host : Host) : Operation → Outcome × Host
  | load => (BuildState.load host project.stateFile).map .loaded id
  | save state => (BuildState.save host project.stateFile state).map .written id
  | record latest => (BuildState.recordBuild host project latest).map .written id
  | build => (Project.buildLocked host project).map .built id

/-- The file that is locked meanwhile. -/
def lockPath (project : Project) : Operation → Path
  | load | save _ | record _ => BuildState.lockFile project.stateFile
  | build => project.buildLock

/-- How the file is locked. -/
def mode : Operation → LockMode
  | load => .shared
  | save _ | record _ | build => .exclusive

/-- What is told of the operation if its lock takes too long. -/
def description : Operation → Text
  | load => "state read".toList
  | save _ | record _ => "state update".toList
  | build => "site build".toList

/-- The outcome of an operation that fails. -/
def failed (error : SiteError) : Operation → Outcome
  | load => .loaded (.error error)
  | save _ | record _ => .written (.error error)
  | build => .built (.error error)

/-- The outcome of an operation that does not get its lock. -/
def refused (error : LockError) : Operation → Outcome
  | load => .loaded (.error (.stateRead (.lock error)))
  | save _ | record _ => .written (.error (.stateWrite (.lock error)))
  | build => .built (.error (.lock error))

end Operation

/-! ## Stages -/

/-- How far a process is on the way to its lock. -/
inductive Approach where
  /-- The directory of the state file is to be made. -/
  | preparing
  /-- The directory of the lock file is to be made. -/
  | entering
  /-- The lock file is to be opened. -/
  | opening
  /-- The open file, with this canonical path, is to be locked. -/
  | trying (place : Path)

/-- What a process with its lock still has to do. -/
inductive Work where
  /-- Read the state, and no more. -/
  | read
  /-- Read the state, in order to store it with this record. -/
  | revise (latest : BuildRecord)
  /-- Write this state to a temporary file. -/
  | stage (state : BuildState)
  /-- Give the temporary file with this canonical path the name of the state file. -/
  | rename (temporary : Path)
  /-- Compile the pages. -/
  | compile
  /-- Put the compiled pages in the place of the published ones. -/
  | swap (compiled : List (Path × Text))
  /-- Give the lock back. -/
  | release (outcome : Outcome)

/-- How far a process is with an operation. -/
inductive Stage where
  | seeking (approach : Approach)
  | holding (held : HeldLock) (work : Work)

/-- The first stage of an operation. -/
def Operation.start : Operation → Stage
  | load | save _ | record _ => .seeking .preparing
  | build => .seeking .entering

/-- What an operation does with its lock. -/
def Operation.work : Operation → Work
  | load => .read
  | save state => .stage state
  | record latest => .revise latest
  | build => .compile

/-- What a process does in one step. -/
inductive Act where
  | begun
  | prepared
  | entered
  | opened
  /-- The lock is not free: the file is going to be opened again. -/
  | waited
  /-- The operation ends without a lock. -/
  | refused (outcome : Outcome)
  | granted
  | read
  | staged
  | renamed
  | compiled
  | swapped
  | released (outcome : Outcome)

/-- Whether the act needs a lock: it takes it, gives it back or works under it. -/
def Act.NeedsLock : Act → Prop
  | begun | prepared | entered | opened | waited | refused _ => False
  | granted | read | staged | renamed | compiled | swapped | released _ => True

/-- Whether the act takes a lock. -/
def Act.isGranted : Act → Bool
  | granted => true
  | _ => false

/-! ## Steps of one process -/

namespace Project

/-- Replaces the state file of a project. -/
def replaceState (disk : Disk) (project : Project) (state : BuildState) :
    Except SiteError Unit × Disk :=
  match disk.replaceFile project.stateFile (Utf8.encode state.write) with
  | .error fault => (.error (.stateWrite (.persist fault)), disk)
  | .ok disk => (.ok (), disk)

/-- Gives a temporary file the name of the state file, or removes it. -/
def nameState (disk : Disk) (project : Project) (temporary : Path) :
    Except SiteError Unit × Disk :=
  match disk.renameFile temporary project.stateFile with
  | .error fault => (.error (.stateWrite (.persist fault)), disk.drop temporary)
  | .ok disk => (.ok (), disk)

/-- Replaces the published pages of a project. -/
def replacePages (disk : Disk) (project : Project) (compiled : List (Path × Text)) :
    Except SiteError BuildReport × Disk :=
  match publish disk project.live (pageTree compiled) with
  | (.error error, disk) => (.error error, disk)
  | (.ok (), disk) => (.ok { files := compiled.map (·.1) }, disk)

/-- The state of a project with a new record. -/
def revised (disk : Disk) (project : Project) (latest : BuildRecord) : BuildState :=
  { (BuildState.readFile disk project.stateFile).toOption.getD .empty with build := some latest }

end Project

variable (project : Project)

/-- `Approaches project operation host approach act host' next`: a step of a process without its
lock.  The operation ends here if there is no next stage. -/
inductive Approaches (operation : Operation) :
    Host → Approach → Act → Host → Option Approach → Prop where
  | prepared {host host' : Host}
      (prepared : BuildState.prepare host project.stateFile = (.ok (), host')) :
      Approaches operation host .preparing .prepared host' (some .entering)
  | unprepared {host host' : Host} {error : SiteError}
      (failed : BuildState.prepare host project.stateFile = (.error error, host')) :
      Approaches operation host .preparing (.refused (operation.failed error)) host' none
  | entered {host : Host} {disk : Disk}
      (made : host.disk.makeDirectories (operation.lockPath project).parent = (.ok (), disk)) :
      Approaches operation host .entering .entered (host.withDisk disk) (some .opening)
  | notEntered {host : Host} {disk : Disk} {fault : Fault}
      (failed : host.disk.makeDirectories (operation.lockPath project).parent
        = (.error fault, disk)) :
      Approaches operation host .entering
        (.refused (operation.refused (.io (operation.lockPath project) .createParents fault)))
        (host.withDisk disk) none
  | opened {host : Host} {disk : Disk} {place : Path}
      (opened : host.disk.openToWrite (operation.lockPath project) = .ok (place, disk)) :
      Approaches operation host .opening .opened (host.withDisk disk) (some (.trying place))
  | notOpened {host : Host} {fault : Fault}
      (failed : host.disk.openToWrite (operation.lockPath project) = .error fault) :
      Approaches operation host .opening
        (.refused (operation.refused (.io (operation.lockPath project) .openFile fault))) host none
  | waited {host : Host} {place : Path}
      (contended : host.isContended place operation.mode = true) :
      Approaches operation host (.trying place) .waited host (some .opening)
  | timedOut {host : Host} {place : Path}
      (contended : host.isContended place operation.mode = true) :
      Approaches operation host (.trying place)
        (.refused (operation.refused
          (.timeout (operation.lockPath project) operation.description))) host none

/-- A step of a process that holds its lock. -/
inductive Works : Host → Work → Act → Host → Work → Prop where
  | read {host : Host} :
      Works host .read .read host
        (.release (.loaded (BuildState.readFile host.disk project.stateFile)))
  | revise {host : Host} {latest : BuildRecord} :
      Works host (.revise latest) .read host (.stage (project.revised host.disk latest))
  | stage {host : Host} {state : BuildState} {temporary : Path} {disk : Disk}
      (staged : BuildState.stageFile host.disk project.stateFile state = (.ok temporary, disk)) :
      Works host (.stage state) .staged (host.withDisk disk) (.rename temporary)
  | notStaged {host : Host} {state : BuildState} {error : SiteError} {disk : Disk}
      (failed : BuildState.stageFile host.disk project.stateFile state = (.error error, disk)) :
      Works host (.stage state) .staged (host.withDisk disk) (.release (.written (.error error)))
  | rename {host : Host} {temporary : Path} :
      Works host (.rename temporary) .renamed
        (BuildState.nameFile host project.stateFile temporary).2
        (.release (.written (BuildState.nameFile host project.stateFile temporary).1))
  | compile {host : Host} {compiled : List (Path × Text)}
      (compiles : project.compiledSite host.disk = .ok compiled) :
      Works host .compile .compiled host (.swap compiled)
  | notCompiled {host : Host} {error : SiteError}
      (failed : project.compiledSite host.disk = .error error) :
      Works host .compile .compiled host (.release (.built (.error error)))
  | swap {host : Host} {compiled : List (Path × Text)} :
      Works host (.swap compiled) .swapped
        (host.afterReplacing project.live (project.replacePages host.disk compiled)).2
        (.release (.built
          (host.afterReplacing project.live (project.replacePages host.disk compiled)).1))

/-- A step of a process with an operation.  A lock is granted if no other one stands against it. -/
inductive Advances (operation : Operation) :
    Host → Stage → Act → Host → Option Stage → Prop where
  | approaches {host host' : Host} {approach : Approach} {act : Act} {next : Option Approach}
      (approaches : Approaches project operation host approach act host' next) :
      Advances operation host (.seeking approach) act host' (next.map .seeking)
  | granted {host : Host} {place : Path}
      (free : host.isContended place operation.mode = false) :
      Advances operation host (.seeking (.trying place)) .granted
        { host with
          locks := ⟨place, operation.mode, host.issued⟩ :: host.locks
          issued := host.issued + 1 }
        (some (.holding ⟨place, operation.mode, host.issued⟩ operation.work))
  | works {host host' : Host} {held : HeldLock} {work work' : Work} {act : Act}
      (works : Works project host work act host' work') :
      Advances operation host (.holding held work) act host' (some (.holding held work'))
  | released {host : Host} {held : HeldLock} {outcome : Outcome} :
      Advances operation host (.holding held (.release outcome)) (.released outcome)
        (host.release held) none

/-! ## Runs of all processes -/

/-- A process with the operations that it still has to begin. -/
structure Worker where
  todo : List Operation
  /-- The operation under way. -/
  job : Option (Operation × Stage) := none
  /-- The number of operations begun so far, and so the number of the one under way. -/
  begun : Nat := 0

/-- The processes on one host. -/
structure System (ι : Type) where
  host : Host
  workers : ι → Worker

/-- A step in a run: which process takes it, and in which of its operations. -/
structure Event (ι : Type) where
  process : ι
  job : Nat
  operation : Operation
  act : Act

section

variable {ι : Type} [DecidableEq ι]

/-- The system in which a process and the host have changed. -/
def System.update (system : System ι) (process : ι) (host : Host) (worker : Worker) : System ι where
  host := host
  workers := Function.update system.workers process worker

theorem System.update_self {system : System ι} {process : ι} {host : Host} {worker : Worker} :
    (system.update process host worker).workers process = worker := by
  rw [System.update]
  exact Function.update_self ..

theorem System.update_of_ne {system : System ι} {process other : ι} {host : Host} {worker : Worker}
    (different : other ≠ process) :
    (system.update process host worker).workers other = system.workers other := by
  rw [System.update]
  exact Function.update_of_ne different ..

theorem System.update_update {system : System ι} {process : ι} {host host' : Host}
    {worker worker' : Worker} : (system.update process host worker).update process host' worker'
      = system.update process host' worker' := by
  simp only [System.update, Function.update_idem]

/-- A step of some process. -/
inductive Step : System ι → Event ι → System ι → Prop where
  | begins {system : System ι} {process : ι} {operation : Operation} {todo : List Operation}
      {begun : Nat} (waiting : system.workers process = { todo := operation :: todo, begun }) :
      Step system { process, job := begun + 1, operation, act := .begun }
        (system.update process system.host
          { todo, job := some (operation, operation.start), begun := begun + 1 })
  | advances {system : System ι} {process : ι} {operation : Operation} {todo : List Operation}
      {begun : Nat} {stage : Stage} {act : Act} {host : Host} {next : Option Stage}
      (busy : system.workers process = { todo, job := some (operation, stage), begun })
      (advances : Advances project operation system.host stage act host next) :
      Step system { process, job := begun, operation, act }
        (system.update process host { todo, job := next.map (operation, ·), begun })

/-- Any number of steps from the system `first`, in any order of the processes. -/
inductive Run (first : System ι) : List (Event ι) → System ι → Prop where
  | start : Run first [] first
  | step {trace : List (Event ι)} {system system' : System ι} {event : Event ι}
      (run : Run first trace system) (step : Step project system event system') :
      Run first (trace ++ [event]) system'

end

/-! ## What a run is compared with -/

variable {ι : Type}

/-- The processes with the operations that they are asked to do, before the first step. -/
def System.initial (disk : Disk) (jobs : ι → List Operation) : System ι where
  host := { disk }
  workers process := { todo := jobs process }

/-- The steps of a run in which a lock was taken. -/
def grants (trace : List (Event ι)) : List (Event ι) :=
  trace.filter (·.act.isGranted)

/-- Operations one after the other, with what each comes to. -/
def performAll (host : Host) : List Operation → List Outcome × Host
  | [] => ([], host)
  | operation :: rest =>
      let performed := operation.perform project host
      let others := performAll performed.2 rest
      (performed.1 :: others.1, others.2)

/-- The operations of a run that got their locks, one after the other in that order. -/
def sequential (disk : Disk) (trace : List (Event ι)) : List Outcome × Host :=
  performAll project { disk } ((grants trace).map (·.operation))

end StaticSite
