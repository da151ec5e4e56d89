import Mathlib
import StaticSite.Proofs.Process.Sections

/-!
# No two at a time

At every moment of a run a lock is held by one process alone or by processes that only read.  An
operation that ends without its lock has done no work.

`Tidy` is what every step keeps.  Locks are numbered as they are taken, so that giving one back
never takes another one away.
-/

namespace StaticSite

variable {ι : Type} [DecidableEq ι] {disk : Disk} {project home : Project} {host : Host}
  {system system' : System ι} {process : ι} {worker : Worker} {event : Event ι}
  {trace : List (Event ι)} {jobs : ι → List Operation}

/-- The process is at this stage of an operation. -/
def System.At (system : System ι) (process : ι) (operation : Operation) (stage : Stage) : Prop :=
  (system.workers process).job = some (operation, stage)

theorem System.update_at_self {operation : Operation} {stage : Stage} :
    (system.update process host worker).At process operation stage ↔
      worker.job = some (operation, stage) := by
  rw [System.At, System.update_self]

theorem System.update_at_of_ne {other : ι} {operation : Operation} {stage : Stage}
    (different : other ≠ process) :
    (system.update process host worker).At other operation stage ↔
      system.At other operation stage := by
  rw [System.At, System.At, System.update_of_ne different]

/-- Who is at a stage after a change is the process that has changed, or was there before. -/
theorem System.update_at_iff {other : ι} {operation : Operation} {stage : Stage} :
    (system.update process host worker).At other operation stage ↔
      other = process ∧ worker.job = some (operation, stage) ∨
        other ≠ process ∧ system.At other operation stage := by
  by_cases same : other = process
  · subst same
    simp [System.update_at_self]
  · simp [System.update_at_of_ne same, same]

/-! ## What holds at every moment -/

/-- Two locks that are held together. -/
structure HeldLock.Apart (first second : HeldLock) : Prop where
  different : first ≠ second
  shared : first.place = second.place → first.mode = .shared ∧ second.mode = .shared

theorem HeldLock.Apart.symm {first second : HeldLock} (apart : first.Apart second) :
    second.Apart first :=
  ⟨apart.different.symm, fun same => (apart.shared same.symm).symm⟩

/-- The lock of an operation that is at work. -/
structure Holds (host : Host) (project home : Project) (operation : Operation) (held : HeldLock)
    (work : Work) : Prop where
  place : held.place = operation.lockPath home
  mode : held.mode = operation.mode
  isHeld : held ∈ host.locks
  early : held.serial < host.issued
  serves : work.Serves home operation
  ready : LockReady host.disk project home operation

/-- What holds at every moment of a run that began on the disk. -/
structure Tidy (disk : Disk) (project home : Project) (system : System ι) : Prop where
  evolves : home.Evolves disk system.host.disk
  locksFiles : system.host.LocksFiles home
  ready : ∀ process operation approach, system.At process operation (.seeking approach) →
    approach.Ready system.host.disk project home operation
  holds : ∀ process operation held work, system.At process operation (.holding held work) →
    Holds system.host project home operation held work
  apart : ∀ process other operation operation' held held' work work', process ≠ other →
    system.At process operation (.holding held work) →
    system.At other operation' (.holding held' work') → held.Apart held'

omit [DecidableEq ι] in
theorem Tidy.initial (jobs : ι → List Operation) :
    Tidy disk project home (System.initial disk jobs) where
  evolves := .refl home disk
  locksFiles _ isHeld := absurd isHeld List.not_mem_nil
  ready _ _ _ seeks := by cases seeks
  holds _ _ _ _ works := by cases works
  apart _ _ _ _ _ _ _ _ _ works := by cases works

/-- A change of one process and the host, seen by the others. -/
theorem Tidy.update (tidy : Tidy disk project home system)
    (evolves : home.Evolves system.host.disk host.disk) (locksFiles : host.LocksFiles home)
    (issued : system.host.issued ≤ host.issued)
    (kept : ∀ other operation held work, other ≠ process →
      system.At other operation (.holding held work) → held ∈ host.locks)
    (ready : ∀ operation approach, worker.job = some (operation, .seeking approach) →
      approach.Ready host.disk project home operation)
    (holds : ∀ operation held work, worker.job = some (operation, .holding held work) →
      Holds host project home operation held work ∧
        ∀ other operation' held' work', other ≠ process →
          system.At other operation' (.holding held' work') → held.Apart held') :
    Tidy disk project home (system.update process host worker) := by
  refine ⟨tidy.evolves.trans evolves, locksFiles, ?_, ?_, ?_⟩
  · intro other operation approach seeks
    rcases System.update_at_iff.1 seeks with ⟨rfl, isNew⟩ | ⟨_, seeks⟩
    · exact ready operation approach isNew
    · exact (tidy.ready other operation approach seeks).evolve evolves
  · intro other operation held work works
    rcases System.update_at_iff.1 works with ⟨rfl, isNew⟩ | ⟨same, works⟩
    · exact (holds operation held work isNew).1
    · have before := tidy.holds other operation held work works
      exact {
        place := before.place
        mode := before.mode
        isHeld := kept other operation held work same works
        early := before.early.trans_le issued
        serves := before.serves
        ready := before.ready.evolve evolves }
  · intro first second operation operation' held held' work work' different works works'
    -- One of the two may be the process that has changed.
    rcases System.update_at_iff.1 works with ⟨rfl, isNew⟩ | ⟨notFirst, before⟩
    · rw [System.update_at_of_ne different.symm] at works'
      exact (holds operation held work isNew).2 second operation' held' work' different.symm works'
    · rcases System.update_at_iff.1 works' with ⟨rfl, isNew⟩ | ⟨_, before'⟩
      · exact ((holds operation' held' work' isNew).2 first operation held work notFirst
          before).symm
      · exact tidy.apart first second operation operation' held held' work work' different before
          before'

omit [DecidableEq ι] in
/-- Where a process holds a lock, the disk is furnished. -/
theorem Tidy.furnished {operation : Operation} {held : HeldLock} {work : Work}
    (tidy : Tidy disk project home system) (secluded : project.Secluded disk home)
    (works : system.At process operation (.holding held work)) :
    project.Furnished system.host.disk home :=
  have ready := (tidy.holds _ _ _ _ works).ready
  ⟨secluded.evolve tidy.evolves, ready.path, ready.room⟩

theorem modes_of_not_contended {place : Path} {mode : LockMode} {held : HeldLock}
    (free : host.isContended place mode = false) (isHeld : held ∈ host.locks)
    (same : place = held.place) : mode = .shared ∧ held.mode = .shared := by
  have compatible := List.any_eq_false.1 free held isHeld
  rw [same, beq_self_eq_true, Bool.true_and] at compatible
  cases mode <;> cases sameMode : held.mode <;> simp_all [LockMode.compatible]

omit [DecidableEq ι] in
/-- Where an operation can take its lock, others are at work on the same data only to read them. -/
theorem Tidy.shared_of_free {operation operation' : Operation} {held : HeldLock} {work : Work}
    (tidy : Tidy disk project home system)
    (free : system.host.isContended (operation.lockPath home) operation.mode = false)
    (works : system.At process operation' (.holding held work))
    (same : operation.data home = operation'.data home) :
    operation.mode = .shared ∧ operation'.mode = .shared := by
  have holds := tidy.holds _ _ _ _ works
  have samePlace : operation.lockPath home = held.place := by
    rw [holds.place, Operation.data_eq_iff.1 same]
  rw [← holds.mode]
  exact modes_of_not_contended free holds.isHeld samePlace

section

variable {operation : Operation} {todo : List Operation} {begun : Nat} {held : HeldLock}
  (tidy : Tidy disk project home system)

include tidy

/-- A process takes a lock that is free for it. -/
theorem Tidy.grant {place : Path} (here : system.At process operation (.seeking (.trying place)))
    (free : system.host.isContended place operation.mode = false) :
    Tidy disk project home (system.update process
      { system.host with
        locks := ⟨place, operation.mode, system.host.issued⟩ :: system.host.locks
        issued := system.host.issued + 1 }
      { todo
        job := some (operation, .holding ⟨place, operation.mode, system.host.issued⟩ operation.work)
        begun }) := by
  obtain ⟨rfl, ready⟩ := tidy.ready _ _ _ here
  refine tidy.update (.refl home _) ?_ (Nat.le_succ _)
    (fun _ _ _ _ _ works => List.mem_cons_of_mem _ (tidy.holds _ _ _ _ works).isHeld)
    (by rintro _ approach ⟨⟩) ?_
  · intro held isHeld
    rcases List.mem_cons.1 isHeld with rfl | isHeld
    · exact ⟨operation.isLock, ready.lock⟩
    · exact tidy.locksFiles held isHeld
  · rintro _ held work ⟨⟩
    refine ⟨⟨rfl, rfl, List.mem_cons_self, Nat.lt_succ_self _, .begin operation, ready⟩, ?_⟩
    intro other operation' held' work' _ works
    have holds := tidy.holds _ _ _ _ works
    -- The new lock has a number that no earlier one has.
    exact ⟨fun same => absurd holds.early (same ▸ Nat.lt_irrefl _),
      modes_of_not_contended free holds.isHeld⟩

/-- A process with a lock does a part of its work. -/
theorem Tidy.work {work work' : Work} {act : Act} (secluded : project.Secluded disk home)
    (here : system.At process operation (.holding held work))
    (works : Works project system.host work act host work') :
    Tidy disk project home (system.update process host
      { todo, job := some (operation, .holding held work'), begun }) := by
  have holds := tidy.holds _ _ _ _ here
  have furnished := tidy.furnished secluded here
  obtain ⟨after, rfl, ⟨evolves, _⟩, _, serves⟩ :=
    works.changes furnished tidy.locksFiles holds.serves
  refine tidy.update evolves (tidy.locksFiles.evolve evolves) le_rfl
    (fun _ _ _ _ _ works => (tidy.holds _ _ _ _ works).isHeld) (by rintro _ approach ⟨⟩) ?_
  rintro _ held work ⟨⟩
  refine ⟨{ holds with serves, ready := holds.ready.evolve evolves }, ?_⟩
  intro other operation' held' work' different works
  exact tidy.apart _ _ _ _ _ _ _ _ different.symm here works

/-- A process gives its lock back. -/
theorem Tidy.release {work : Work} (here : system.At process operation (.holding held work)) :
    Tidy disk project home
      (system.update process (system.host.release held) { todo, begun }) := by
  refine tidy.update (.refl home _) ?_ le_rfl ?_ (by rintro _ approach ⟨⟩)
    (by rintro _ held work ⟨⟩)
  · exact fun held isHeld => tidy.locksFiles held (List.mem_of_mem_erase isHeld)
  · -- Only one lock is taken off, and no other process has the same.
    intro other operation' held' work' different works
    have apart := tidy.apart _ _ _ _ _ _ _ _ different works here
    exact (List.mem_erase_of_ne apart.different).2 (tidy.holds _ _ _ _ works).isHeld

end

theorem Tidy.step (tidy : Tidy disk project home system) (secluded : project.Secluded disk home)
    (step : Step project system event system') : Tidy disk project home system' := by
  cases step with
  | @begins process operation todo begun waiting =>
    refine tidy.update (.refl home _) tidy.locksFiles le_rfl
      (fun _ _ _ _ _ works => (tidy.holds _ _ _ _ works).isHeld) ?_ ?_
    · rintro _ approach begins
      cases operation <;> cases begins <;> trivial
    · rintro _ held work begins
      cases operation <;> cases begins
  | @advances process operation todo begun stage act host next busy advances =>
    have here : system.At process operation stage := by rw [System.At, busy]
    cases advances with
    | @approaches _ approach act next approaches =>
      obtain ⟨after, rfl, evolves, _, ready⟩ := approaches.changes (secluded.evolve tidy.evolves)
        tidy.locksFiles (tidy.ready _ _ _ here)
      refine tidy.update evolves (tidy.locksFiles.evolve evolves) le_rfl
        (fun _ _ _ _ _ works => (tidy.holds _ _ _ _ works).isHeld) ?_ ?_
      · rintro _ later seeks
        cases next with
        | none => cases seeks
        | some later =>
          cases seeks
          exact ready _ rfl
      · rintro _ held work works
        cases next <;> cases works
    | granted free => exact tidy.grant here free
    | works works => exact tidy.work secluded here works
    | released => exact tidy.release here

theorem Run.tidy (run : Run project (System.initial disk jobs) trace system)
    (secluded : project.Secluded disk home) : Tidy disk project home system := by
  induction run with
  | start => exact .initial jobs
  | step _ step ih => exact ih.step secluded step

/-! ## Operations without a lock -/

section

variable {operation : Operation} {stage : Stage} {act : Act} {host' : Host} {next : Option Stage}

/-- A lock is neither taken nor given back on the way to it. -/
theorem Approaches.keeps_locks {approach : Approach} {next : Option Approach}
    (approaches : Approaches project operation host approach act host' next) :
    act.isGranted = false ∧ ∀ outcome, act ≠ .released outcome := by
  cases approaches <;> exact ⟨rfl, fun _ => nofun⟩

/-- A lock is neither taken nor given back during the work. -/
theorem Works.keeps_locks {work work' : Work} (works : Works project host work act host' work') :
    act.isGranted = false ∧ ∀ outcome, act ≠ .released outcome := by
  cases works <;> exact ⟨rfl, fun _ => nofun⟩

theorem Advances.not_seeking (advances : Advances project operation host stage act host' next)
    (needsLock : act.NeedsLock) (approach : Approach) : next ≠ some (.seeking approach) := by
  cases advances with
  | approaches approaches => cases approaches <;> cases needsLock
  | granted | works => exact nofun
  | released => exact nofun

/-- Who acts without a lock or takes one has none. -/
theorem Advances.exists_approach (advances : Advances project operation host stage act host' next)
    (noLock : act.isGranted = true ∨ ¬ act.NeedsLock) : ∃ approach, stage = .seeking approach := by
  cases advances with
  | approaches | granted => exact ⟨_, rfl⟩
  | released => simp [Act.isGranted, Act.NeedsLock] at noLock
  | works works => cases works <;> simp [Act.isGranted, Act.NeedsLock] at noLock

theorem Advances.next_eq_none {outcome : Outcome}
    (advances : Advances project operation host stage (.refused outcome) host' next) :
    next = none := by
  cases advances with
  | approaches approaches => cases approaches <;> rfl
  | works works => cases works

end

/-- What an event says of the process later on.  The number of an operation is given once, an
operation that has got its lock does not seek it, and one that ends without it is over. -/
structure Event.Fits (event : Event ι) (worker : Worker) : Prop where
  bounded : event.job ≤ worker.begun
  locked : event.act.NeedsLock → event.job = worker.begun →
    ∀ operation approach, worker.job ≠ some (operation, .seeking approach)
  ended : ∀ outcome, event.act = .refused outcome → event.job = worker.begun → worker.job = none

/-- What the events so far say of the operations. -/
structure Numbered (trace : List (Event ι)) (system : System ι) : Prop where
  fits : ∀ event ∈ trace, event.Fits (system.workers event.process)
  refused : ∀ event ∈ trace, ∀ other ∈ trace, event.process = other.process →
    event.job = other.job → ∀ outcome, event.act = .refused outcome → ¬ other.act.NeedsLock
  distinct : (grants trace).Nodup

theorem Act.NeedsLock.of_isGranted {act : Act} (granted : act.isGranted = true) :
    act.NeedsLock := by
  cases act <;> trivial

omit [DecidableEq ι] in
theorem grants_snoc (event : Event ι) :
    grants (trace ++ [event]) = grants trace ++ if event.act.isGranted then [event] else [] := by
  cases granted : event.act.isGranted <;> simp [grants, granted]

/-- An event is added that no earlier one of the same operation stands against. -/
theorem Numbered.update (numbered : Numbered trace system)
    (earlier : ∀ other ∈ trace, other.process = event.process → other.Fits worker)
    (now : event.Fits worker)
    (refused : ∀ other ∈ trace, other.process = event.process → other.job = event.job →
      (∀ outcome, event.act = .refused outcome → ¬ other.act.NeedsLock) ∧
      (∀ outcome, other.act = .refused outcome → ¬ event.act.NeedsLock))
    (distinct : event.act.isGranted = true → event ∉ trace) :
    Numbered (trace ++ [event]) (system.update event.process host worker) := by
  refine ⟨?_, ?_, ?_⟩
  · intro other isIn
    rcases List.mem_append.1 isIn with isIn | isNew
    · by_cases same : other.process = event.process
      · rw [same, System.update_self]
        exact earlier other isIn same
      · rw [System.update_of_ne same]
        exact numbered.fits other isIn
    · cases List.mem_singleton.1 isNew
      rw [System.update_self]
      exact now
  · intro first isFirst second isSecond sameProcess sameJob outcome isRefused
    rcases List.mem_append.1 isFirst with isFirst | isNew
    · rcases List.mem_append.1 isSecond with isSecond | isNew
      · exact numbered.refused first isFirst second isSecond sameProcess sameJob outcome isRefused
      · cases List.mem_singleton.1 isNew
        exact (refused first isFirst sameProcess sameJob).2 outcome isRefused
    · cases List.mem_singleton.1 isNew
      rcases List.mem_append.1 isSecond with isSecond | isNew
      · exact (refused second isSecond sameProcess.symm sameJob.symm).1 outcome isRefused
      · cases List.mem_singleton.1 isNew
        rw [isRefused]
        exact id
  · rw [grants_snoc]
    split
    · next granted =>
      refine List.nodup_append.2 ⟨numbered.distinct, List.nodup_singleton _, ?_⟩
      rintro other isOther _ isNew rfl
      cases List.mem_singleton.1 isNew
      exact distinct granted (List.mem_filter.1 isOther).1
    · rw [List.append_nil]
      exact numbered.distinct

section

variable {operation : Operation} {todo : List Operation} {begun : Nat}

/-- A process begins its next operation, under a number that all its earlier events are below. -/
theorem Numbered.begin {act : Act} {job : Option (Operation × Stage)}
    (numbered : Numbered trace system)
    (waiting : system.workers process = { todo := operation :: todo, begun })
    (noLock : ¬ act.NeedsLock) (noEnd : ∀ outcome, act ≠ .refused outcome) :
    Numbered (trace ++ [{ process, job := begun + 1, operation, act }])
      (system.update process host { todo, job, begun := begun + 1 }) := by
  have before : ∀ other ∈ trace, other.process = process → other.job < begun + 1 := by
    intro other isIn same
    have bounded := (numbered.fits other isIn).bounded
    rw [same, waiting] at bounded
    exact Nat.lt_succ_of_le bounded
  refine numbered.update ?_ ?_ ?_ ?_
  · intro other isIn same
    have less := before other isIn same
    exact ⟨less.le, fun _ current => absurd current less.ne,
      fun _ _ current => absurd current less.ne⟩
  · exact ⟨le_rfl, fun needsLock => absurd needsLock noLock,
      fun outcome isRefused => absurd isRefused (noEnd outcome)⟩
  · exact fun other isIn same sameJob => absurd sameJob (before other isIn same).ne
  · exact fun granted => absurd (.of_isGranted granted) noLock

/-- A process goes on with its operation.  Once that has its lock, it neither takes one again nor
ends without it. -/
theorem Numbered.advance {stage : Stage} {act : Act} {next : Option Stage}
    (numbered : Numbered trace system)
    (busy : system.workers process = { todo, job := some (operation, stage), begun })
    (advances : Advances project operation system.host stage act host next) :
    Numbered (trace ++ [{ process, job := begun, operation, act }])
      (system.update process host { todo, job := next.map (operation, ·), begun }) := by
  have before : ∀ other ∈ trace, other.process = process →
      other.Fits { todo, job := some (operation, stage), begun } := by
    intro other isIn same
    have fits := numbered.fits other isIn
    rwa [same, busy] at fits
  -- Behind an act under the lock the same job goes on under it and is granted no second one.
  have holding : ∀ other ∈ trace, other.process = process → other.job = begun →
      other.act.NeedsLock → act.isGranted = false ∧ act.NeedsLock := by
    intro other isIn same current needsLock
    by_contra noLock
    obtain ⟨approach, rfl⟩ := advances.exists_approach (by
      rwa [Classical.not_and_iff_not_or_not, Bool.not_eq_false] at noLock)
    exact (before other isIn same).locked needsLock current operation approach rfl
  have notSeeking : act.NeedsLock → ∀ operation' approach,
      next.map (operation, ·) ≠ some (operation', .seeking approach) := by
    rintro needsLock operation' approach seeks
    obtain ⟨stage, isNext, same⟩ := Option.map_eq_some_iff.1 seeks
    cases same
    exact advances.not_seeking needsLock approach isNext
  refine numbered.update ?_ ?_ ?_ ?_
  · intro other isIn same
    have fits := before other isIn same
    refine ⟨fits.bounded, fun needsLock current => ?_, fun outcome isRefused current => ?_⟩
    · exact notSeeking (holding other isIn same current needsLock).2
    · cases fits.ended outcome isRefused current
  · refine ⟨le_rfl, fun needsLock _ => notSeeking needsLock, ?_⟩
    rintro outcome rfl _
    rw [advances.next_eq_none, Option.map_none]
  · intro other isIn same current
    constructor
    · rintro outcome rfl needsLock
      exact (holding other isIn same current needsLock).2
    · intro outcome isRefused
      cases (before other isIn same).ended outcome isRefused current
  · intro granted isIn
    have taken := holding _ isIn rfl rfl (.of_isGranted granted)
    rw [granted] at taken
    cases taken.1

end

theorem Numbered.step (numbered : Numbered trace system)
    (step : Step project system event system') : Numbered (trace ++ [event]) system' := by
  cases step with
  | begins waiting => exact numbered.begin waiting id fun _ => nofun
  | advances busy advances => exact numbered.advance busy advances

theorem Run.numbered {first : System ι} (run : Run project first trace system) :
    Numbered trace system := by
  induction run with
  | start => constructor <;> simp [grants]
  | step _ step ih => exact ih.step step

end StaticSite
