import Mathlib
import StaticSite.Proofs.BuildState.Reading
import StaticSite.Proofs.BuildState.Staging
import StaticSite.Proofs.Disk.Making
import StaticSite.Proofs.Text.Encoding

/-!
# Stored states

A state that has been stored is what is loaded from its path from then on, and a state that has
been loaded can be stored.  Storing replaces a link at the path itself; only where that link led to
a directory can it take away the way to the path or to its lock file.
-/

namespace StaticSite

namespace Host

variable {host ready : Host} {path : Path} {mode : LockMode} {description : Text}
  {held : HeldLock} {trouble : LockTrouble}

/-- A lock that is granted although something could be refused is granted if nothing is. -/
theorem acquire_of_trouble
    (acquired : host.acquire path mode description trouble = (.ok held, ready)) :
    host.acquire path mode description = (.ok held, ready) := by
  unfold acquire at acquired ⊢
  split at acquired
  · cases acquired
  · next made =>
    split at acquired
    · cases acquired
    · next opening =>
      obtain ⟨_, opening⟩ := Except.check_bind_eq_ok.1 opening
      simp only [Disk.makeDirectories_of_refused made, Fault.check, Except.ok_bind, opening]
      split at acquired
      · cases acquired
      · exact acquired

/-- A lock is granted once its file is open and no other lock stands against it. -/
theorem acquire_eq_ok : host.acquire path mode description = (.ok held, ready) ↔
    ∃ roomed place opened, host.disk.makeDirectories path.parent = (.ok (), roomed) ∧
      roomed.openToWrite path = .ok (place, opened) ∧
      (host.withDisk opened).isContended place mode = false ∧
      held = { place, mode, serial := host.issued } ∧
      ready = { host.withDisk opened with
        locks := held :: (host.withDisk opened).locks, issued := host.issued + 1 } := by
  unfold acquire
  constructor
  · intro acquired
    split at acquired
    · cases acquired
    · next roomed made =>
      split at acquired
      · cases acquired
      · next place opened opening =>
        obtain ⟨_, opening⟩ := Except.check_bind_eq_ok.1 opening
        dsimp only at acquired
        split at acquired
        · cases acquired
        · next free =>
          cases acquired
          exact ⟨roomed, place, opened, made, opening, Bool.eq_false_iff.2 free, rfl, rfl⟩
  · rintro ⟨roomed, place, opened, made, opening, free, rfl, rfl⟩
    simp only [made, Fault.check, Except.ok_bind, opening, free, Bool.false_eq_true, if_false]
    rfl

theorem withLock_eq_ok {α : Type} {work : Host → α × Host} {result : α} {after : Host} :
    host.withLock path mode description work = (.ok result, after) ↔
      ∃ held ready, host.acquire path mode description = (.ok held, ready) ∧
        (work ready).1 = result ∧ after = (work ready).2.release held := by
  unfold withLock
  cases acquired : host.acquire path mode description with
  | mk outcome ready => cases outcome <;> simp [eq_comm]

/-- An exclusive lock stands against every other one. -/
theorem not_isContended_exclusive {place : Path} :
    host.isContended place .exclusive = false ↔ ∀ other ∈ host.locks, other.place ≠ place := by
  have incompatible : ∀ mode, LockMode.compatible mode .exclusive = false := by
    intro mode
    cases mode <;> rfl
  rw [isContended, List.any_eq_false]
  refine forall_congr' fun other => forall_congr' fun _ => ?_
  rw [incompatible, Bool.not_false, Bool.and_true, beq_iff_eq]

/-- The locks that are left when a file has been replaced and the lock for that given back. -/
theorem mem_locks_release {other : HeldLock} {place : Path} {replaced : Disk}
    {others : List HeldLock} (found : ready.disk.placeOf path = .ok place)
    (locks : ready.locks = held :: others)
    (isLeft : other ∈ ((((ready.withDisk ready.disk).forgetLocks path).withDisk
      replaced).release held).locks) :
    other ∈ others ∧ other.place ≠ place := by
  simp only [release, withDisk, forgetLocks, found, locks, List.filter_filter] at isLeft
  have passed := (List.mem_filter.1 (List.mem_of_mem_erase isLeft)).2
  rw [Bool.and_eq_true, Bool.and_eq_true, Bool.not_eq_true'] at passed
  refine ⟨?_, ?_⟩
  · -- The lock itself goes at the latest when it is given back.
    rw [List.filter_cons] at isLeft
    split at isLeft
    · rw [List.erase_cons_head] at isLeft
      exact List.mem_of_mem_filter isLeft
    · exact List.mem_of_mem_filter (List.mem_of_mem_erase isLeft)
  · rintro rfl
    rw [List.isPrefixOf_iff_prefix.2 List.prefix_rfl] at passed
    cases passed.2.1

end Host

namespace BuildState

variable {host ready loaded after : Host} {path : Path} {state : BuildState}
  {next : Disk → BuildState} {trouble : StoreTrouble}

theorem prepare_eq_ok : prepare host path = (.ok (), ready) ↔
    path ≠ [] ∧ ∃ roomed, host.disk.makeDirectories path.parent = (.ok (), roomed) ∧
      ready = host.withDisk roomed := by
  unfold prepare
  by_cases root : path = []
  · simp [root]
  · rw [if_neg root]
    cases made : host.disk.makeDirectories path.parent with
    | mk result roomed => cases result <;> simp [root, eq_comm]

theorem load_eq_ok : load host path = (.ok state, loaded) ↔
    ∃ roomed held ready, prepare host path = (.ok (), roomed) ∧
      roomed.acquire (lockFile path) .shared "state read".toList = (.ok held, ready) ∧
      readFile ready.disk path = .ok state ∧ loaded = ready.release held := by
  unfold load
  constructor
  · intro found
    split at found
    · cases found
    · next roomed prepared =>
      split at found
      · cases found
      · next locked =>
        obtain ⟨held, ready, acquired, read, rest⟩ := Host.withLock_eq_ok.1 locked
        cases found
        exact ⟨roomed, held, ready, prepared, acquired, read, rest⟩
  · rintro ⟨roomed, held, ready, prepared, acquired, read, rfl⟩
    rw [prepared]
    dsimp only
    rw [Host.withLock_eq_ok.2 ⟨held, ready, acquired, rfl, rfl⟩]
    dsimp only
    rw [read]

/-- Whoever has the lock finds the directory that the lock file is in. -/
theorem isDirectory_of_acquire {mode : LockMode} {description : Text} {held : HeldLock}
    (acquired : host.acquire (lockFile path) mode description = (.ok held, ready)) :
    ready.disk.isDirectory path.parent = true := by
  obtain ⟨_, lock, opened, _, opening, _, _, rfl⟩ := Host.acquire_eq_ok.1 acquired
  have again := Disk.openToWrite_again opening
  obtain ⟨located, isFile⟩ := Disk.openToWrite_eq_self.1 again
  obtain ⟨_, stands⟩ := Disk.holdsFile_eq_true.1 isFile
  obtain ⟨_, leads⟩ := Disk.leads_of_openToWrite again
  have checked := (Disk.writeTarget_eq_ok.1 located).1
  have found := Disk.find_eq_ok.2 ⟨checked, lock,
    Disk.resolve_eq_ok.2 ⟨(Disk.checkPathText_eq_ok.1 checked).1, leads.follow⟩, stands⟩
  exact Disk.isDirectory_of_find_append found (List.cons_ne_nil _ _)

/-- With the lock an update comes to what replacing the file comes to. -/
theorem update_of_acquire {roomed : Host} {held : HeldLock}
    (prepared : prepare host path = (.ok (), roomed))
    (acquired : roomed.acquire (lockFile path) .exclusive "state update".toList
      = (.ok held, ready)) :
    update host path next = ((writeFile ready path (next ready.disk)).1,
      (writeFile ready path (next ready.disk)).2.release held) := by
  rw [update, prepared]
  dsimp only
  rw [Host.withLock_eq_ok.2 ⟨held, ready, acquired, rfl, rfl⟩]

theorem update_eq_ok : update host path next = (.ok (), after) ↔
    ∃ roomed held ready replaced, prepare host path = (.ok (), roomed) ∧
      roomed.acquire (lockFile path) .exclusive "state update".toList = (.ok held, ready) ∧
      ready.disk.replaceFile path (Utf8.encode (next ready.disk).write) = .ok replaced ∧
      replaced.exists? path.parent = true ∧
      after = (((ready.withDisk ready.disk).forgetLocks path).withDisk replaced).release held := by
  constructor
  · intro updated
    cases prepared : prepare host path with
    | mk result roomed =>
    cases result with
    | error error =>
      rw [update, prepared] at updated
      cases updated
    | ok _ =>
    cases acquired : roomed.acquire (lockFile path) .exclusive "state update".toList with
    | mk result ready =>
    cases result with
    | error error =>
      rw [update, prepared] at updated
      simp only [Host.withLock, acquired] at updated
      cases updated
    | ok held =>
      rw [update_of_acquire prepared acquired,
        writeFile_eq_of_isDirectory (isDirectory_of_acquire acquired)] at updated
      refine ⟨roomed, held, ready, ?_⟩
      split at updated
      · cases updated
      · next replaced replacing =>
        split at updated
        · cases updated
        · next found =>
          cases updated
          exact ⟨replaced, rfl, acquired, replacing, Disk.exists?_eq_true.2 ⟨_, found⟩, rfl⟩
  · rintro ⟨roomed, held, ready, replaced, prepared, acquired, replacing, stays, rfl⟩
    obtain ⟨_, found⟩ := Disk.exists?_eq_true.1 stays
    rw [update_of_acquire prepared acquired,
      writeFile_eq_of_isDirectory (isDirectory_of_acquire acquired), replacing]
    dsimp only
    rw [found]

/-! ## What succeeds under trouble -/

theorem prepare_of_trouble (prepared : prepare host path trouble = (.ok (), ready)) :
    prepare host path = (.ok (), ready) := by
  unfold prepare at prepared
  split at prepared
  · cases prepared
  · next nonempty =>
    split at prepared
    · next roomed made =>
      cases prepared
      exact prepare_eq_ok.2 ⟨nonempty, roomed, Disk.makeDirectories_of_refused made, rfl⟩
    · cases prepared

theorem prepare_eq_error {error : SiteError}
    (failed : prepare host path trouble = (.error error, ready)) :
    error = .stateWrite .noParent ∨ ∃ fault, error = .stateWrite (.createParent fault) := by
  unfold prepare at failed
  split at failed
  · cases failed
    exact .inl rfl
  · split at failed
    · cases failed
    · cases failed
      exact .inr ⟨_, rfl⟩

theorem prepare_ne_syncParent (fault : Fault) :
    prepare host path trouble ≠ (.error (.stateWrite (.syncParent fault)), ready) := by
  intro failed
  rcases prepare_eq_error failed with wrong | ⟨_, wrong⟩ <;> cases wrong

theorem readFile_of_refusal {disk : Disk} {refusal : Option Fault}
    (read : readFile disk path refusal = .ok state) : readFile disk path = .ok state := by
  cases refusal with
  | none => exact read
  | some fault => cases read

/-- A state that is loaded although something could be refused is loaded if nothing is. -/
theorem load_of_trouble (found : load host path trouble = (.ok state, loaded)) :
    load host path = (.ok state, loaded) := by
  unfold load at found
  split at found
  · cases found
  · next roomed prepared =>
    unfold Host.withLock at found
    cases acquired : roomed.acquire (lockFile path) .shared "state read".toList trouble.lock with
    | mk outcome ready =>
    simp only [acquired] at found
    cases outcome with
    | error error => cases found
    | ok held =>
      obtain ⟨read, rfl⟩ := Prod.mk.inj found
      exact load_eq_ok.2 ⟨roomed, held, ready, prepare_of_trouble prepared,
        Host.acquire_of_trouble acquired, readFile_of_refusal read, rfl⟩

/-- An update that replaces the state file although something could be refused leaves the same
behind if nothing is. -/
theorem update_of_replaced {result : Except SiteError Unit}
    (updated : update host path next trouble = (result, after)) (replaced : HasReplaced result) :
    ∃ result', update host path next = (result', after) ∧ trouble.Follows result result' := by
  unfold update at updated ⊢
  cases prepared : prepare host path trouble with
  | mk outcome roomed =>
  rw [prepared] at updated
  cases outcome with
  | error error =>
    cases updated
    cases replaced with
    | lost fault => exact absurd prepared (prepare_ne_syncParent fault)
  | ok _ =>
    unfold Host.withLock at updated
    cases acquired : roomed.acquire (lockFile path) .exclusive "state update".toList
        trouble.lock with
    | mk outcome ready =>
    simp only [acquired] at updated
    cases outcome with
    | error error =>
      cases updated
      cases replaced
    | ok held =>
      obtain ⟨rfl, rfl⟩ := Prod.mk.inj updated
      obtain ⟨result', written, follows⟩ := writeFile_of_replaced rfl replaced
      simp only [prepare_of_trouble prepared, Host.withLock, Host.acquire_of_trouble acquired,
        written]
      exact ⟨_, rfl, follows⟩

theorem update_of_trouble (updated : update host path next trouble = (.ok (), after)) :
    update host path next = (.ok (), after) := by
  obtain ⟨result', updated', rfl | ⟨rfl, _⟩⟩ := update_of_replaced updated .ok
  · exact updated'
  · exact updated'

/-! ## With everything there -/

/-- All that storing and loading a state needs is there, and nobody holds the lock. -/
structure Accessible (host : Host) (path : Path) : Prop where
  nonempty : path ≠ []
  room : host.disk.isDirectory path.parent = true
  lock : ∃ place, host.disk.openToWrite (lockFile path) = .ok (place, host.disk) ∧
    ∀ held ∈ host.locks, held.place ≠ place

theorem lockFile_parent (path : Path) : (lockFile path).parent = path.parent :=
  List.dropLast_concat

/-- The lock is granted and nothing changes on the disk. -/
theorem Accessible.acquire_eq (accessible : Accessible host path) (mode : LockMode)
    (description : Text) : ∃ roomed held ready others, prepare host path = (.ok (), roomed) ∧
      roomed.acquire (lockFile path) mode description = (.ok held, ready) ∧
      ready.disk = host.disk ∧ ready.locks = held :: others ∧
      ∀ other ∈ others, other ∈ host.locks := by
  obtain ⟨nonempty, room, place, opened, free⟩ := accessible
  have made := Disk.makeDirectories_of_isDirectory room
  have fewer : ∀ other ∈ (((host.withDisk host.disk).withDisk host.disk)).locks,
      other ∈ host.locks :=
    fun other isIn => List.mem_of_mem_filter (List.mem_of_mem_filter isIn)
  have free' : ((host.withDisk host.disk).withDisk host.disk).isContended place mode = false := by
    rw [Host.isContended, List.any_eq_false]
    intro other isIn contends
    rw [Bool.and_eq_true, beq_iff_eq] at contends
    exact free other (fewer other isIn) contends.1
  refine ⟨host.withDisk host.disk, _, _, _, prepare_eq_ok.2 ⟨nonempty, _, made, rfl⟩,
    Host.acquire_eq_ok.2 ⟨host.disk, place, host.disk, ?_, opened, free', rfl, rfl⟩,
    rfl, rfl, fewer⟩
  rw [lockFile_parent]
  exact made

theorem Accessible.mono (accessible : Accessible host path) (sameDisk : after.disk = host.disk)
    (fewer : ∀ held ∈ after.locks, held ∈ host.locks) : Accessible after path := by
  obtain ⟨nonempty, room, place, opened, free⟩ := accessible
  refine ⟨nonempty, sameDisk ▸ room, place, sameDisk ▸ opened, ?_⟩
  exact fun held isIn => free held (fewer held isIn)

theorem load_of_accessible (accessible : Accessible host path)
    (read : readFile host.disk path = .ok state) :
    ∃ loaded, load host path = (.ok state, loaded) ∧ loaded.disk = host.disk ∧
      Accessible loaded path := by
  obtain ⟨roomed, held, ready, others, prepared, acquired, sameDisk, locks, fewer⟩ :=
    accessible.acquire_eq .shared "state read".toList
  refine ⟨ready.release held, load_eq_ok.2 ⟨roomed, held, ready, prepared, acquired, ?_, rfl⟩,
    sameDisk, accessible.mono sameDisk ?_⟩
  · rw [sameDisk, read]
  · rw [Host.release, locks, List.erase_cons_head]
    exact fewer

theorem update_of_accessible {replaced : Disk} (accessible : Accessible host path)
    (replacing : host.disk.replaceFile path (Utf8.encode (next host.disk).write) = .ok replaced)
    (stays : replaced.exists? path.parent = true) :
    ∃ after, update host path next = (.ok (), after) ∧ after.disk = replaced := by
  obtain ⟨roomed, held, ready, others, prepared, acquired, sameDisk, locks, fewer⟩ :=
    accessible.acquire_eq .exclusive "state update".toList
  refine ⟨_, update_eq_ok.2 ⟨roomed, held, ready, replaced, prepared, acquired, ?_, stays, rfl⟩,
    rfl⟩
  rw [sameDisk, replacing]

/-! ## Behind an update -/

/-- The disk on which an update replaces the state file. -/
def lockedDisk (host : Host) (path : Path) : Disk :=
  ((prepare host path).2.acquire (lockFile path) .exclusive "state update".toList).2.disk

theorem Accessible.lockedDisk_eq (accessible : Accessible host path) :
    lockedDisk host path = host.disk := by
  obtain ⟨_, _, ready, _, prepared, acquired, sameDisk, _⟩ :=
    accessible.acquire_eq .exclusive "state update".toList
  rw [lockedDisk, prepared]
  dsimp only
  rw [acquired, sameDisk]

/-- An update finds a link to a directory where the state file goes. -/
def ReplacesDirectoryLink (host : Host) (path : Path) : Prop :=
  ∃ place, (lockedDisk host path).placeOf path = .ok place ∧
    (lockedDisk host path).LeadsToDirectory place

/-- An update replaces the file in its place, and leaves no lock on it or on the lock file. -/
theorem replaced_of_update (updated : update host path next = (.ok (), after)) :
    ∃ lock place, path ≠ [] ∧
      (lockedDisk host path).openToWrite (lockFile path) = .ok (lock, lockedDisk host path) ∧
      (lockedDisk host path).placeOf path = .ok place ∧
      Disk.entry? (lockedDisk host path) place ≠ some .directory ∧
      after.disk = (lockedDisk host path).put place
        (.file (Utf8.encode (next (lockedDisk host path)).write)) ∧
      ∀ held ∈ after.locks, held.place ≠ lock ∧ held.place ≠ place := by
  obtain ⟨roomed, held, ready, replaced, prepared, acquired, replacing, _, rfl⟩ :=
    update_eq_ok.1 updated
  have nonempty := (prepare_eq_ok.1 prepared).1
  have sameDisk : lockedDisk host path = ready.disk := by
    rw [lockedDisk, prepared]
    dsimp only
    rw [acquired]
  obtain ⟨_, lock, opened, _, opening, free, isHeld, rfl⟩ := Host.acquire_eq_ok.1 acquired
  obtain ⟨_, place, found, notDirectory, rfl⟩ := Disk.replaceFile_eq_ok.1 replacing
  rw [sameDisk]
  refine ⟨lock, place, nonempty, Disk.openToWrite_again opening, found, notDirectory, rfl, ?_⟩
  intro other isLeft
  obtain ⟨isOther, apart⟩ := Host.mem_locks_release found rfl isLeft
  exact ⟨Host.not_isContended_exclusive.1 free other isOther, apart⟩

/-- The directory of the state file and the file of its lock are there. -/
def Reachable (disk : Disk) (path : Path) : Prop :=
  disk.isDirectory path.parent = true ∧
    ∃ place, disk.openToWrite (lockFile path) = .ok (place, disk)

/-- The directory of a file that replaces no link to a directory is still there. -/
theorem isDirectory_parent_put {disk : Disk} {place : Path} (nonempty : path ≠ [])
    (found : disk.placeOf path = .ok place) (notDirectory : disk.entry? place ≠ some .directory)
    (harmless : ¬ disk.LeadsToDirectory place) (bytes : List UInt8) :
    Disk.isDirectory (disk.put place (.file bytes)) path.parent = true := by
  obtain ⟨above, name, rfl⟩ := List.eq_nil_or_concat path |>.resolve_left nonempty
  rw [List.concat_eq_append] at *
  obtain ⟨parent, reaches, checked⟩ := Disk.reaches_of_placeOf found
  rw [Path.parent, List.dropLast_concat]
  exact (reaches.put_file notDirectory harmless).isDirectory checked

/-- Everything is still there behind an update that replaced no link to a directory. -/
theorem reachable_of_update (updated : update host path next = (.ok (), after))
    (harmless : ¬ ReplacesDirectoryLink host path) : Reachable after.disk path := by
  obtain ⟨lock, place, nonempty, opened, found, notDirectory, isAfter, _⟩ :=
    replaced_of_update updated
  have harmless' : ¬ (lockedDisk host path).LeadsToDirectory place := fun leads =>
    harmless ⟨place, found, leads⟩
  obtain ⟨opens, _, opened'⟩ := Disk.openToWrite_put_file notDirectory
    (Utf8.encode (next (lockedDisk host path)).write) harmless' opened
  rw [isAfter]
  exact ⟨isDirectory_parent_put nonempty found notDirectory harmless' _, opens, opened'⟩

/-- Where everything is still there behind an update, the new file is read and nobody holds the
lock. -/
theorem accessible_of_reachable (updated : update host path next = (.ok (), after))
    (reachable : Reachable after.disk path) : Accessible after path ∧
      after.disk.readBytes path = .ok (Utf8.encode (next (lockedDisk host path)).write) := by
  obtain ⟨lock, place, nonempty, opened, found, notDirectory, isAfter, free⟩ :=
    replaced_of_update updated
  obtain ⟨room, opens, opened'⟩ := reachable
  rw [isAfter] at opened'
  constructor
  · refine ⟨nonempty, room, opens, isAfter ▸ opened', fun held isHeld => ?_⟩
    -- The lock file is the one that the update locked, or the new file has taken its place.
    rcases (Disk.openToWrite_of_put_file notDirectory (.refl _) opened opened').1 with rfl | rfl
    · exact (free held isHeld).1
    · exact (free held isHeld).2
  · obtain ⟨above, name, rfl⟩ := List.eq_nil_or_concat path |>.resolve_left nonempty
    rw [List.concat_eq_append] at *
    rw [Path.parent, List.dropLast_concat] at room
    rw [isAfter] at room ⊢
    exact Disk.readBytes_put_file notDirectory found room

theorem readFile_eq_ok {disk : Disk} : readFile disk path = .ok state ↔
    ∃ bytes text, disk.readBytes path = .ok bytes ∧ Utf8.decode? bytes = some text ∧
      read? text = some state ∧ state.schemaVersion = currentSchema := by
  unfold readFile
  constructor
  · intro found
    split at found
    · cases found
    · next text read =>
      obtain ⟨bytes, readBytes, decoded⟩ := Disk.readText_eq_ok.1 read
      split at found
      · cases found
      · next parsed =>
        split at found
        · next current =>
          cases found
          exact ⟨bytes, text, readBytes, decoded, parsed, current⟩
        · cases found
  · rintro ⟨bytes, text, readBytes, decoded, parsed, current⟩
    simp only [Fault.check, Except.ok_bind, Disk.readText_eq_ok.2 ⟨bytes, readBytes, decoded⟩,
      parsed, if_pos current]

/-- A state is read from the bytes in which it is stored. -/
theorem readFile_of_stored {disk : Disk} (current : state.schemaVersion = currentSchema)
    (stored : disk.readBytes path = .ok (Utf8.encode state.write)) :
    readFile disk path = .ok state :=
  readFile_eq_ok.2 ⟨_, _, stored, Utf8.decode?_encode _, read?_write state, current⟩

/-- What is loaded behind an update is what the update has written, and everything is there. -/
theorem reachable_of_load_update (updated : update host path next = (.ok (), after))
    (found : load after path = (.ok state, loaded)) :
    state = next (lockedDisk host path) ∧ Reachable after.disk path := by
  obtain ⟨lock, place, nonempty, isLock, located, notDirectory, isAfter, _⟩ :=
    replaced_of_update updated
  obtain ⟨roomed, held, ready, prepared, acquired, read, _⟩ := load_eq_ok.1 found
  obtain ⟨bytes, text, readBytes, decoded, parsed, _⟩ := readFile_eq_ok.1 read
  -- Until it reads, loading only adds to the disk.
  obtain ⟨_, room, made, rfl⟩ := prepare_eq_ok.1 prepared
  obtain ⟨room', opens, opened, made', opening, _, _, rfl⟩ := Host.acquire_eq_ok.1 acquired
  have grows : after.disk.Within opened := by
    have first := (Disk.makeDirectories_grows after.disk path.parent).within
    have second := (Disk.makeDirectories_grows room (lockFile path).parent).within
    rw [made] at first
    rw [show room.makeDirectories (lockFile path).parent = (.ok (), room') from made'] at second
    exact (first.trans second).trans (Disk.openToWrite_grows opening).within
  rw [isAfter] at grows
  obtain ⟨above, name, rfl⟩ := List.eq_nil_or_concat path |>.resolve_left nonempty
  rw [List.concat_eq_append] at *
  obtain ⟨rfl, stillRoom⟩ := Disk.eq_of_readBytes_put_file notDirectory grows located readBytes
  have isLock' := (Disk.openToWrite_of_put_file notDirectory grows isLock
    (Disk.openToWrite_again opening)).2
  rw [Utf8.decode?_encode] at decoded
  cases decoded
  rw [read?_write] at parsed
  refine ⟨(Option.some.inj parsed).symm, ?_, opens, ?_⟩
  · rw [isAfter, Path.parent, List.dropLast_concat]
    exact stillRoom
  · rw [isAfter]
    exact isLock'

/-- Where a file is read, no link to a directory is replaced, and a file can be put there. -/
theorem not_replacesDirectoryLink_of_read {bytes : List UInt8} (bytes' : List UInt8)
    (accessible : Accessible host path) (read : host.disk.readBytes path = .ok bytes) :
    ¬ ReplacesDirectoryLink host path ∧
      ∃ replaced, host.disk.replaceFile path bytes' = .ok replaced ∧
        replaced.exists? path.parent = true := by
  have checked := (Disk.find_eq_ok.1 (Disk.readBytes_eq_ok.1 read)).1
  obtain ⟨place, found, notDirectory, harmless⟩ : ∃ place, host.disk.placeOf path = .ok place ∧
      host.disk.entry? place ≠ some .directory ∧ ¬ host.disk.LeadsToDirectory place := by
    obtain ⟨above, name, rfl⟩ := List.eq_nil_or_concat path |>.resolve_left accessible.nonempty
    rw [List.concat_eq_append] at *
    exact Disk.placeOf_of_readBytes read
  have room := isDirectory_parent_put accessible.nonempty found notDirectory harmless bytes'
  refine ⟨?_, _, Disk.replaceFile_eq_ok.2
    ⟨(Disk.checkPathText_eq_ok.1 checked).1, place, found, notDirectory, rfl⟩,
    Disk.exists?_eq_true.2 ⟨_, Disk.isDirectory_eq_true.1 room⟩⟩
  rintro ⟨other, found', leads⟩
  rw [accessible.lockedDisk_eq] at found' leads
  rw [found] at found'
  cases found'
  exact harmless leads

/-- Where a file is read, a state can be stored, and can be read and stored again. -/
theorem store_over_file {bytes : List UInt8} (accessible : Accessible host path)
    (read : host.disk.readBytes path = .ok bytes) (next : Disk → BuildState) :
    ∃ after, update host path next = (.ok (), after) ∧ Accessible after path ∧
      after.disk.readBytes path = .ok (Utf8.encode (next host.disk).write) := by
  obtain ⟨harmless, replaced, replacing, stays⟩ :=
    not_replacesDirectoryLink_of_read _ accessible read
  obtain ⟨after, updated, _⟩ := update_of_accessible accessible replacing stays
  have stored := accessible_of_reachable updated (reachable_of_update updated harmless)
  rw [accessible.lockedDisk_eq] at stored
  exact ⟨after, updated, stored⟩

end BuildState

end StaticSite
