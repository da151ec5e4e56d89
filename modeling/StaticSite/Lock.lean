import StaticSite.Disk.Change

/-!
# Locks

Work on one project is kept apart by locks on files.  A lock is exclusive or shared; it is
refused while another lock on the same file stands against it.  A host is a disk together with
the locks that are held on it.
-/

namespace StaticSite

/-- How a file is locked. -/
inductive LockMode where
  | exclusive
  | shared
  deriving DecidableEq, Repr

/-- A lock that is held. -/
structure HeldLock where
  /-- The canonical path of the locked file. -/
  place : Path
  mode : LockMode
  /-- So many locks were taken before this one. -/
  serial : Nat
  deriving DecidableEq, Repr

/-- What was being done when a lock could not be taken. -/
inductive LockStep where
  | createParents
  | openFile
  | lockFile
  deriving DecidableEq, Repr

/-- Why a lock could not be taken. -/
inductive LockError where
  | timeout (path : Path) (description : Text)
  | io (path : Path) (step : LockStep) (fault : Fault)
  deriving DecidableEq, Repr

/-- The wording of a step. -/
def LockStep.message : LockStep → Text
  | createParents => "create parent directories".toList
  | openFile => "open lock file".toList
  | lockFile => "acquire lock".toList

/-- The wording of the error. -/
def LockError.message : LockError → Text
  | timeout path description =>
      "timeout waiting for lock on ".toList ++ path.text ++ " (".toList ++ description ++ [')']
  | io path step fault =>
      "I/O error during ".toList ++ step.message ++ " on ".toList ++ path.text ++ ": ".toList
        ++ fault.message

/-- Whether two locks on one file can be held together. -/
def LockMode.compatible : LockMode → LockMode → Bool
  | shared, shared => true
  | _, _ => false

/-- What the system refuses while a lock is taken. -/
structure LockTrouble where
  /-- Directories that cannot be made. -/
  making : Path → Option Fault := fun _ => none
  opening : Option Fault := none
  /-- Why the file cannot be locked, if not for another lock. -/
  locking : Option Fault := none

/-- A disk and the locks held on its files. -/
structure Host where
  disk : Disk
  locks : List HeldLock := []
  /-- How many locks have been taken. -/
  issued : Nat := 0

namespace Host

/-- The host with another disk.  A lock belongs to its file and goes with it. -/
def withDisk (host : Host) (disk : Disk) : Host :=
  { host with disk, locks := host.locks.filter fun held => disk.holdsFile held.place }

@[simp] theorem disk_withDisk (host : Host) (disk : Disk) : (host.withDisk disk).disk = disk := rfl

/-- Whether a lock on the file at `place` would have to wait. -/
def isContended (host : Host) (place : Path) (mode : LockMode) : Bool :=
  host.locks.any fun held => held.place == place && !held.mode.compatible mode

/-- Takes a lock on the file at a path, which is created with its directories if it is missing.
A lock that another one stands against is waited for in vain, since nothing else happens
meanwhile. -/
def acquire (host : Host) (path : Path) (mode : LockMode) (description : Text)
    (trouble : LockTrouble := {}) : Except LockError HeldLock × Host :=
  match host.disk.makeDirectories path.parent trouble.making with
  | (.error fault, disk) => (.error (.io path .createParents fault), host.withDisk disk)
  | (.ok (), disk) =>
      match (do Fault.check trouble.opening; disk.openToWrite path) with
      | .error fault => (.error (.io path .openFile fault), host.withDisk disk)
      | .ok (place, disk) =>
          let host := host.withDisk disk
          match trouble.locking with
          | some fault => (.error (.io path .lockFile fault), host)
          | none =>
              if host.isContended place mode then (.error (.timeout path description), host)
              else
                let held : HeldLock := { place, mode, serial := host.issued }
                (.ok held, { host with locks := held :: host.locks, issued := host.issued + 1 })

/-- Gives a lock back, unless it has gone with its file. -/
def release (host : Host) (held : HeldLock) : Host :=
  { host with locks := host.locks.erase held }

/-- Forgets the locks on what stands at a path or below it, where other files are going to be: a
lock belongs to the file and not to its name. -/
def forgetLocks (host : Host) (path : Path) : Host :=
  match host.disk.placeOf path with
  | .ok place => { host with locks := host.locks.filter fun held => !place.isPrefixOf held.place }
  | .error _ => host

/-- The host after a change of its disk that, if it succeeded, put something new at a path. -/
def afterReplacing {ε α : Type} (host : Host) (path : Path) (change : Except ε α × Disk) :
    Except ε α × Host :=
  match change with
  | (.ok result, disk) => (.ok result, (host.forgetLocks path).withDisk disk)
  | (.error error, disk) => (.error error, host.withDisk disk)

/-- Does some work while holding a lock. -/
def withLock {α : Type} (host : Host) (path : Path) (mode : LockMode) (description : Text)
    (work : Host → α × Host) (trouble : LockTrouble := {}) : Except LockError α × Host :=
  match host.acquire path mode description trouble with
  | (.error error, host) => (.error error, host)
  | (.ok held, host) =>
      let (result, host) := work host
      (.ok result, host.release held)

end Host

end StaticSite
