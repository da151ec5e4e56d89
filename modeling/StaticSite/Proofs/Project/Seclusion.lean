import Mathlib
import StaticSite.BuildState.Store
import StaticSite.Proofs.Disk.Members
import StaticSite.Proofs.Project.Rebuilding

/-!
# The rooms of a project

A project keeps its state, its locks and its published pages in rooms of its own.  As long as these
are secluded, all that operations on the project do is to fill the rooms, and they depend on little
of what is there.
-/

namespace StaticSite.Project

variable {disk other first second third : Disk} {project home : Project} {path place : Path}
  {entry : Entry} {name : Text} {names names' : List Text} {fault : Fault}

/-! ## Places -/

/-- The directory of records and locks. -/
def stateRoom (project : Project) : Path := project.root ++ [stateName]

/-- The file that readers and writers of the state lock. -/
def stateLock (project : Project) : Path := project.root ++ [stateName, "state.lock".toList]

/-- The rooms that belong to the tool. -/
def rooms : List Text := [stateName, liveName]

theorem live_ne_nil : home.live ≠ [] := by simp [live]

theorem stateFile_eq : project.stateFile = project.stateRoom ++ ["state.json".toList] := by
  simp [stateFile, stateRoom]

theorem stateLock_eq : project.stateLock = project.stateRoom ++ ["state.lock".toList] := by
  simp [stateLock, stateRoom]

theorem buildLock_eq : project.buildLock = project.stateRoom ++ ["build.lock".toList] := by
  simp [buildLock, stateRoom]

theorem stateFile_parent : project.stateFile.parent = project.stateRoom := by
  rw [stateFile_eq, Path.parent, List.dropLast_concat]

theorem lockFile_stateFile : BuildState.lockFile project.stateFile = project.stateLock := by
  rw [BuildState.lockFile, stateFile_eq, Path.parent, List.dropLast_concat, stateLock_eq]

/-- The lock files are in the directory of the state. -/
def IsLock (project : Project) (place : Path) : Prop :=
  place = project.stateLock ∨ place = project.buildLock

theorem IsLock.exists_name (isLock : project.IsLock place) :
    ∃ name, place = project.stateRoom ++ [name] ∧ name ≠ "state.json".toList ∧
      Text.byteLength name ≤ Disk.maxNameBytes := by
  rcases isLock with rfl | rfl
  · exact ⟨_, stateLock_eq, by decide, by decide⟩
  · exact ⟨_, buildLock_eq, by decide, by decide⟩

/-- What is read and written under a lock: the state file and the published pages. -/
def IsData (project : Project) (place : Path) : Prop :=
  place = project.stateFile ∨ place = project.live

theorem IsLock.below_stateRoom (isLock : home.IsLock place) : home.stateRoom <+: place := by
  obtain ⟨name, rfl, _⟩ := isLock.exists_name
  exact List.prefix_append _ _

theorem IsData.not_stateRoom (isData : home.IsData place) : ¬ place <+: home.stateRoom := by
  rcases isData with rfl | rfl
  · intro below
    have shorter := below.length_le
    rw [stateFile_eq, List.length_append, List.length_singleton] at shorter
    omega
  · rw [live, stateRoom, List.prefix_append_right_inj]
    decide

theorem IsData.not_lock (isData : home.IsData place) (isLock : home.IsLock path) :
    ¬ place <+: path := by
  rcases isData with rfl | rfl <;> rcases isLock with rfl | rfl <;>
    simp only [stateFile, live, stateLock, buildLock, List.prefix_append_right_inj] <;> decide

theorem IsData.not_outside (isData : home.IsData place) (below : place <+: path) :
    ¬ Disk.Outside home.root rooms path := by
  intro outside
  rcases isData with rfl | rfl
  · refine outside stateName (by decide) (List.IsPrefix.trans ?_ below)
    rw [stateFile, List.prefix_append_right_inj]
    decide
  · exact outside liveName (by decide) below

theorem IsData.eq_of_prefix (isData : home.IsData place) (isData' : home.IsData path)
    (below : place <+: path) : path = place := by
  rcases isData with rfl | rfl <;> rcases isData' with rfl | rfl
  · rfl
  · rw [stateFile, live, List.prefix_append_right_inj] at below
    exact absurd below (by decide)
  · rw [stateFile, live, List.prefix_append_right_inj] at below
    exact absurd below (by decide)
  · rfl

theorem IsData.apart (isData : home.IsData place) (isData' : home.IsData path)
    (different : place ≠ path) (other : Path) (below : place <+: other) : ¬ path <+: other := by
  intro below'
  rcases List.prefix_or_prefix_of_prefix below below' with isFront | isFront
  · exact different (isData.eq_of_prefix isData' isFront).symm
  · exact different (isData'.eq_of_prefix isData isFront)

/-- The place of a temporary file. -/
def scratch (project : Project) (number : Nat) : Path :=
  project.stateRoom ++ [Disk.temporaryName number]

/-- Temporary files, and the names below them, are in the directory of the state. -/
def IsScratch (project : Project) (path : Path) : Prop :=
  ∃ number, project.scratch number <+: path

theorem temporaryName_ne (number : Nat) {name : Text} (plain : name.head? ≠ some '.') :
    Disk.temporaryName number ≠ name := by
  rintro rfl
  exact plain rfl

/-- What is in the directory of the state under a name that no temporary file can have. -/
theorem IsScratch.not_member (plain : name.head? ≠ some '.') :
    ¬ home.IsScratch (home.stateRoom ++ [name]) := by
  rintro ⟨number, below⟩
  rw [scratch, List.prefix_append_right_inj, List.cons_prefix_cons] at below
  exact temporaryName_ne number plain below.1

theorem isScratch_scratch (number : Nat) : home.IsScratch (home.scratch number) :=
  ⟨number, List.prefix_rfl⟩

theorem stateFile_not_scratch {number : Nat} : ¬ home.scratch number <+: home.stateFile := by
  rw [stateFile_eq]
  exact fun below => IsScratch.not_member (by decide) ⟨number, below⟩

theorem scratch_ne_nil {number : Nat} : home.scratch number ≠ [] := by simp [scratch]

theorem stateFile_ne_nil : home.stateFile ≠ [] := by simp [stateFile]

theorem IsScratch.below_stateRoom (isScratch : home.IsScratch path) : home.stateRoom <+: path := by
  obtain ⟨number, below⟩ := isScratch
  exact (List.prefix_append _ _).trans below

/-- What belongs to the state file or to the published pages: what is there, and for the state file
the temporary files that it is made from. -/
def Owns (project : Project) (place path : Path) : Prop :=
  place <+: path ∨ place = project.stateFile ∧ project.IsScratch path

theorem IsData.not_owns_stateRoom (isData : home.IsData place) :
    ¬ home.Owns place home.stateRoom := by
  rintro (below | ⟨_, number, below⟩)
  · exact isData.not_stateRoom below
  · have shorter := below.length_le
    rw [scratch, List.length_append, List.length_singleton] at shorter
    omega

theorem IsData.not_owns_lock (isData : home.IsData place) (isLock : home.IsLock path) :
    ¬ home.Owns place path := by
  rintro (below | ⟨_, isScratch⟩)
  · exact isData.not_lock isLock below
  · rcases isLock with rfl | rfl
    · rw [stateLock_eq] at isScratch
      exact IsScratch.not_member (by decide) isScratch
    · rw [buildLock_eq] at isScratch
      exact IsScratch.not_member (by decide) isScratch

theorem IsData.owns_not_outside (isData : home.IsData place) (owns : home.Owns place path) :
    ¬ Disk.Outside home.root rooms path := by
  rcases owns with below | ⟨_, isScratch⟩
  · exact isData.not_outside below
  · exact fun outside => outside stateName (by decide) isScratch.below_stateRoom

theorem IsData.owns_apart (isData : home.IsData place) (isData' : home.IsData path)
    (different : place ≠ path) {other : Path} (owns : home.Owns place other) :
    ¬ home.Owns path other := by
  have scratch_not_live : home.IsScratch other → ¬ home.live <+: other := by
    rintro isScratch below
    rcases List.prefix_or_prefix_of_prefix isScratch.below_stateRoom below
      with isFront | isFront <;>
      rw [stateRoom, live, List.prefix_append_right_inj] at isFront <;> revert isFront <;> decide
  rintro (below' | ⟨rfl, isScratch⟩)
  · rcases owns with below | ⟨rfl, isScratch⟩
    · exact isData.apart isData' different other below below'
    · rcases isData' with rfl | rfl
      · exact different rfl
      · exact scratch_not_live isScratch below'
  · rcases owns with below | ⟨rfl, _⟩
    · rcases isData with rfl | rfl
      · exact different rfl
      · exact scratch_not_live isScratch below
    · exact different rfl

theorem owns_live : home.Owns home.live path ↔ home.live <+: path := by
  have different : home.live ≠ home.stateFile := by simp [stateFile, live]
  simp [Owns, different]

/-- One piece of data is the same on both disks. -/
def SameData (project : Project) (first second : Disk) (place : Path) : Prop :=
  ∀ path, project.Owns place path → first.entry? path = second.entry? path

namespace SameData

theorem refl (home : Project) (disk : Disk) (place : Path) : home.SameData disk disk place :=
  fun _ _ => rfl

theorem symm (same : home.SameData first second place) : home.SameData second first place :=
  fun path owns => (same path owns).symm

theorem trans (same : home.SameData first second place)
    (same' : home.SameData second third place) : home.SameData first third place :=
  fun path owns => (same path owns).trans (same' path owns)

theorem sameAt (same : home.SameData first second place) : first.SameAt second place :=
  fun path below => same path (.inl below)

theorem fill (notOwned : ¬ home.Owns place path) :
    home.SameData disk (disk.fill path entry) place := by
  intro other owns
  have different : other ≠ path := by
    rintro rfl
    exact notOwned owns
  rw [Disk.entry?_fill, if_neg different]

end SameData

/-! ## What operations leave as it is -/

/-- Nothing or the same stands at the place, or what was wanted and missing. -/
def Filled (first second : Disk) (place : Path) (wanted : Entry) : Prop :=
  second.entry? place = first.entry? place ∨
    first.entry? place = none ∧ second.entry? place = some wanted

/-- The second disk is the first one after operations on the project. -/
structure Evolves (home : Project) (first second : Disk) : Prop where
  agrees : first.AgreesOutside second home.root rooms
  room : Filled first second home.stateRoom .directory
  lock : ∀ place, home.IsLock place → Filled first second place (.file [])
  noLink : ∀ place, home.IsData place → ∀ target,
    second.entry? place = some (.link target) → first.entry? place = some (.link target)

theorem Filled.trans {wanted : Entry} (filled : Filled first second place wanted)
    (filled' : Filled second third place wanted) : Filled first third place wanted := by
  rcases filled' with same | ⟨free, stands⟩
  · rw [Filled, same]
    exact filled
  · rcases filled with same | ⟨_, stands'⟩
    · exact .inr ⟨same ▸ free, stands⟩
    · rw [free] at stands'
      cases stands'

namespace Evolves

theorem refl (home : Project) (disk : Disk) : Evolves home disk disk where
  agrees _ _ := rfl
  room := .inl rfl
  lock _ _ := .inl rfl
  noLink _ _ _ linked := linked

theorem trans (evolves : Evolves home first second) (evolves' : Evolves home second third) :
    Evolves home first third where
  agrees := evolves.agrees.trans evolves'.agrees
  room := evolves.room.trans evolves'.room
  lock place isLock := (evolves.lock place isLock).trans (evolves'.lock place isLock)
  noLink place isData target linked :=
    evolves.noLink place isData target (evolves'.noLink place isData target linked)

/-- The directory of the state stays. -/
theorem stateRoom (evolves : Evolves home first second)
    (inside : first.entry? home.stateRoom = some .directory) :
    second.entry? home.stateRoom = some .directory := by
  rcases evolves.room with same | ⟨free, _⟩
  · rw [same, inside]
  · rw [free] at inside
    cases inside

end Evolves

/-! ## What operations change -/

/-- Directories and files that are filled in where they are missing. -/
theorem filled_fill : Filled disk (disk.fill path entry) path entry := by
  rw [Filled, Disk.entry?_fill, if_pos rfl]
  cases disk.entry? path with
  | none => exact .inr ⟨rfl, rfl⟩
  | some held => exact .inl rfl

theorem filled_fill_of_ne {wanted : Entry} (different : place ≠ path) :
    Filled disk (disk.fill path entry) place wanted := by
  rw [Filled, Disk.entry?_fill, if_neg different]
  exact .inl rfl

theorem evolves_fill_stateRoom : Evolves home disk (disk.fill home.stateRoom .directory) where
  agrees path outside := by
    have different : path ≠ home.stateRoom := by
      rintro rfl
      exact outside stateName (by decide) List.prefix_rfl
    rw [Disk.entry?_fill, if_neg different]
  room := filled_fill
  lock place isLock := by
    obtain ⟨name, rfl, _⟩ := isLock.exists_name
    exact filled_fill_of_ne (by simp)
  noLink place isData target linked := by
    have different : place ≠ home.stateRoom := by
      rintro rfl
      exact isData.not_stateRoom List.prefix_rfl
    rwa [Disk.entry?_fill, if_neg different] at linked

theorem evolves_fill_lock (isLock : home.IsLock place) :
    Evolves home disk (disk.fill place (.file [])) where
  agrees path outside := by
    have different : path ≠ place := by
      rintro rfl
      exact outside stateName (by decide) isLock.below_stateRoom
    rw [Disk.entry?_fill, if_neg different]
  room := by
    obtain ⟨name, rfl, _⟩ := isLock.exists_name
    exact filled_fill_of_ne (by simp)
  lock other isLock' := by
    by_cases same : other = place
    · rw [same]
      exact filled_fill
    · exact filled_fill_of_ne same
  noLink data isData target linked := by
    have different : data ≠ place := by
      rintro rfl
      exact isData.not_lock isLock List.prefix_rfl
    rwa [Disk.entry?_fill, if_neg different] at linked

/-- What only changes the state file and the published pages keeps everything else. -/
theorem evolves_of_data (isData : home.IsData place)
    (frame : ∀ path, ¬ home.Owns place path → second.entry? path = first.entry? path)
    (noLink : ∀ target, second.entry? place = some (.link target) →
      first.entry? place = some (.link target)) : Evolves home first second where
  agrees path outside := (frame path fun owns => isData.owns_not_outside owns outside).symm
  room := .inl (frame _ isData.not_owns_stateRoom)
  lock other isLock := .inl (frame other (isData.not_owns_lock isLock))
  noLink other isData' target linked := by
    by_cases same : other = place
    · rw [same] at linked ⊢
      exact noLink target linked
    · rwa [frame other (isData'.owns_apart isData same (.inl List.prefix_rfl))] at linked

theorem entry?_drop_scratch {number : Nat} (notOwned : ¬ home.Owns home.stateFile path) :
    Disk.entry? (disk.drop (home.scratch number)) path = disk.entry? path := by
  rw [Disk.entry?_drop scratch_ne_nil, if_neg fun below => notOwned (.inr ⟨rfl, number, below⟩)]

theorem entry?_drop_scratch_stateFile {number : Nat} :
    Disk.entry? (disk.drop (home.scratch number)) home.stateFile
      = disk.entry? home.stateFile := by
  rw [Disk.entry?_drop scratch_ne_nil, if_neg stateFile_not_scratch]

theorem evolves_drop_scratch (number : Nat) :
    Evolves home disk (disk.drop (home.scratch number)) :=
  evolves_of_data (.inl rfl) (fun _ => entry?_drop_scratch) fun _ linked =>
    entry?_drop_scratch_stateFile.symm.trans linked

/-- Places a tree where nothing or a directory stands.  A file is in its way. -/
def publishAt (disk : Disk) (place : Path) (staged : Disk) : Except Fault Unit × Disk :=
  match disk.entry? place with
  | some (.file _) => (.error .notDirectory, disk)
  | some .directory => (.ok (), (disk.drop place).graft place staged)
  | _ => (.ok (), disk.graft place staged)

/-- Places a tree under a name that leads to the place. -/
def publishAs (disk : Disk) (name place : Path) (staged : Disk) : Except SiteError Unit × Disk :=
  match Disk.checkPathText name.text with
  | .error fault => (.error (.buildWrite name fault), disk)
  | .ok () => (publishAt disk place staged).map (·.mapError (.buildWrite name)) id

section

variable {staged : Disk} (notRoot : place ≠ [])

include notRoot

theorem publishAt_congr (same : first.SameAt second place) :
    (publishAt first place staged).1 = (publishAt second place staged).1 ∧
      (publishAt first place staged).2.SameAt (publishAt second place staged).2 place := by
  have grafted : ∀ {first second : Disk}, first.SameAt second place →
      (first.graft place staged).SameAt (second.graft place staged) place := by
    rintro first second same _ ⟨rest, rfl⟩
    rw [Disk.entry?_graft notRoot, Disk.entry?_graft notRoot, same _ (List.prefix_append _ _)]
  have dropped : (first.drop place).SameAt (second.drop place) place := by
    intro path below
    rw [Disk.entry?_drop notRoot, Disk.entry?_drop notRoot, if_pos below, if_pos below]
  unfold publishAt
  rw [same _ List.prefix_rfl]
  cases second.entry? place with
  | none => exact ⟨rfl, grafted same⟩
  | some entry =>
    cases entry with
    | file bytes => exact ⟨rfl, same⟩
    | link target => exact ⟨rfl, grafted same⟩
    | directory => exact ⟨rfl, grafted dropped⟩

theorem publishAt_frame (apart : ¬ place <+: path) :
    Disk.entry? (publishAt disk place staged).2 path = disk.entry? path := by
  have dropped : Disk.entry? (disk.drop place) path = disk.entry? path := by
    rw [Disk.entry?_drop notRoot, if_neg apart]
  unfold publishAt
  cases disk.entry? place with
  | none => exact Disk.entry?_graft_outside apart
  | some entry =>
    cases entry with
    | file bytes => rfl
    | link target => exact Disk.entry?_graft_outside apart
    | directory => exact (Disk.entry?_graft_outside apart).trans dropped

/-- What is published is a directory, unless the tree says otherwise. -/
theorem publishAt_noLink {target : Text}
    (staged_noLink : ∀ target, staged.entries.get? [] ≠ some (.link target))
    (linked : Disk.entry? (publishAt disk place staged).2 place = some (.link target)) :
    disk.entry? place = some (.link target) := by
  have grafted : ∀ disk : Disk,
      Disk.entry? (disk.graft place staged) place ≠ some (.link target) := by
    intro disk linked
    have atPlace : Disk.entry? (disk.graft place staged) (place ++ []) = _ :=
      Disk.entry?_graft notRoot
    rw [List.append_nil, linked, if_pos rfl] at atPlace
    cases found : staged.entries.get? [] with
    | none =>
      rw [found] at atPlace
      cases atPlace
    | some entry =>
      rw [found] at atPlace
      cases atPlace
      exact staged_noLink target found
  unfold publishAt at linked
  split at linked
  · exact linked
  · exact absurd linked (grafted _)
  · exact absurd linked (grafted _)

end

/-- New pages are files in directories. -/
theorem pageTree_noLink {compiled : List (Path × Text)} {target : Text} :
    (pageTree compiled).entries.get? path ≠ some (.link target) := by
  induction compiled using List.reverseRecOn with
  | nil =>
    intro staged
    cases staged
  | append_singleton compiled last ih =>
    have step : pageTree (compiled ++ [last]) = putPage (pageTree compiled) last := by
      simp only [pageTree, List.foldl_append, List.foldl_cons, List.foldl_nil]
    rw [step, putPage, Disk.put, Table.get?_insert, Disk.get?_rooms]
    split
    · simp
    · split
      · simp
      · exact ih

/-! ## Secluded rooms -/

/-- The rooms of the project belong to it alone: its path leads to its directory even without them,
no link stands where operations work, and no page or directive leads there, so that what compiles
does not depend on them.  Otherwise new pages could take the lock files away with the old ones, or
change what the state file says. -/
structure Secluded (disk : Disk) (project home : Project) : Prop where
  inside : disk.entry? home.root = some .directory
  reached : ∃ left, ((disk.drop home.stateRoom).drop home.live).Leads Disk.maxLinks
    (project.root.map .enter) [] left home.root
  noLink : ∀ place, place = home.stateRoom ∨ home.IsLock place ∨ home.IsData place → ∀ target,
    disk.entry? place ≠ some (.link target)
  compiles : ∀ other, disk.AgreesOutside other home.root rooms →
    compiledSite other project = compiledSite disk project

/-- Without its rooms a disk holds what is outside them. -/
theorem entry?_drop_rooms :
    Disk.entry? ((disk.drop home.stateRoom).drop home.live) path = some entry ↔
      Disk.Outside home.root rooms path ∧ disk.entry? path = some entry := by
  have notRoot : home.stateRoom ≠ [] := by simp [stateRoom]
  have outside_iff : Disk.Outside home.root rooms path ↔
      ¬ home.live <+: path ∧ ¬ home.stateRoom <+: path := by
    simp [Disk.Outside, rooms, live, stateRoom, and_comm]
  rw [Disk.entry?_drop live_ne_nil, Disk.entry?_drop notRoot, outside_iff]
  split
  · next below => simp [below]
  · next above =>
    split
    · next below => simp [below]
    · next above' => simp [above, above']

theorem Secluded.evolve (secluded : Secluded first project home)
    (evolves : Evolves home first second) : Secluded second project home where
  inside := by
    rw [← evolves.agrees _ (Disk.outside_of_front List.prefix_rfl)]
    exact secluded.inside
  reached := by
    obtain ⟨left, leads⟩ := secluded.reached
    refine ⟨left, leads.mono fun path entry stands => ?_⟩
    obtain ⟨outside, stands⟩ := entry?_drop_rooms.1 stands
    exact entry?_drop_rooms.2 ⟨outside, evolves.agrees path outside ▸ stands⟩
  noLink place isPlace target linked := by
    rcases isPlace with rfl | isLock | isData
    · rcases evolves.room with same | ⟨_, stands⟩
      · exact secluded.noLink _ (.inl rfl) target (same ▸ linked)
      · rw [stands] at linked
        cases linked
    · rcases evolves.lock place isLock with same | ⟨_, stands⟩
      · exact secluded.noLink _ (.inr (.inl isLock)) target (same ▸ linked)
      · rw [stands] at linked
        cases linked
    · exact secluded.noLink _ (.inr (.inr isData)) target
        (evolves.noLink place isData target linked)
  compiles other agrees := by
    rw [secluded.compiles _ (evolves.agrees.trans agrees), secluded.compiles _ evolves.agrees]

namespace Secluded

variable (secluded : Secluded disk project home)

include secluded

theorem reaches_root : disk.Reaches project.root home.root := by
  obtain ⟨left, leads⟩ := secluded.reached
  exact ⟨⟨left, leads.mono fun _ _ stands => (entry?_drop_rooms.1 stands).2⟩, secluded.inside⟩

theorem makeDirectories_eq_ok : disk.makeDirectories project.stateRoom = (.ok (), other) ↔
    Disk.checkPathText project.stateRoom.text = .ok () ∧ disk.AcceptsDirectory home.stateRoom ∧
      other = disk.fill home.stateRoom .directory :=
  secluded.reaches_root.makeDirectories_eq_ok (by decide) (secluded.noLink _ (.inl rfl))

theorem makeDirectories_eq_error
    (refused : disk.makeDirectories project.stateRoom = (.error fault, other)) : other = disk :=
  secluded.reaches_root.makeDirectories_eq_error (by decide) (secluded.noLink _ (.inl rfl)) refused

theorem drop_reaches_root : (disk.drop home.live).Reaches project.root home.root := by
  obtain ⟨left, leads⟩ := secluded.reached
  have kept : ∀ path, Disk.Outside home.root rooms path →
      Disk.entry? (disk.drop home.live) path = disk.entry? path := by
    intro path outside
    have above : ¬ home.live <+: path := outside liveName (by decide)
    rw [Disk.entry?_drop live_ne_nil, if_neg above]
  refine ⟨⟨left, leads.mono fun path entry stands => ?_⟩, ?_⟩
  · obtain ⟨outside, stands⟩ := entry?_drop_rooms.1 stands
    rw [kept path outside, stands]
  · rw [kept _ (Disk.outside_of_front List.prefix_rfl), secluded.inside]

/-- Pages are published under the name of their room, unless a file is in the way. -/
theorem publish_eq {staged : Disk} :
    publish disk project.live staged = publishAs disk project.live home.live staged := by
  have short : Text.byteLength liveName ≤ Disk.maxNameBytes := by decide
  have noLink := secluded.noLink home.live (.inr (.inr (.inr rfl)))
  have placed := secluded.reaches_root.placeOf_eq short
  have found := secluded.reaches_root.find_eq short noLink
  unfold publishAs
  rw [live, live] at *
  cases checked : Disk.checkPathText (Path.text (project.root ++ [liveName])) with
  | error fault =>
    rw [checked, Except.error_bind] at placed found
    have missing : disk.exists? (project.root ++ [liveName]) = false := by
      rw [Disk.exists?, found]
      rfl
    simp only [publish, missing, Bool.false_eq_true, if_false, Disk.moveTreeTo_of_error placed]
  | ok _ =>
    rw [checked, Except.ok_bind] at placed found
    cases stands : disk.entry? (home.root ++ [liveName]) with
    | none =>
      have missing : disk.exists? (project.root ++ [liveName]) = false := by
        rw [Disk.exists?, found, stands]
        rfl
      simp [publish, missing, Disk.moveTreeTo_of_free placed stands, publishAt, stands]
    | some entry =>
      cases entry with
      | link target => exact absurd stands (noLink target)
      | file bytes =>
        have there := Disk.exists?_of_placeOf placed stands (by simp)
        have removed := Disk.removeTree_file placed (by simp [Disk.holdsFile, stands])
        simp [publish, there, removed, publishAt, stands]
      | directory =>
        -- The old pages go first: the path has to lead to the same directory without them.
        have placed' := secluded.drop_reaches_root.placeOf_eq short
        rw [checked, Except.ok_bind] at placed'
        rw [publish_of_placeOf placed' (.inr stands)]
        simp [publishAt, stands, live]

variable (stands : disk.entry? home.stateRoom = some .directory)

include stands

theorem reaches_stateRoom : disk.Reaches project.stateRoom home.stateRoom :=
  secluded.reaches_root.enter (by decide) stands

theorem openToWrite_eq_ok (isLock : home.IsLock (home.stateRoom ++ [name])) :
    disk.openToWrite (project.stateRoom ++ [name]) = .ok (place, other) ↔
      Disk.checkPathText (Path.text (project.stateRoom ++ [name])) = .ok () ∧
        disk.AcceptsFile (home.stateRoom ++ [name]) ∧ place = home.stateRoom ++ [name] ∧
        other = disk.fill (home.stateRoom ++ [name]) (.file []) := by
  obtain ⟨last, same, _, short⟩ := isLock.exists_name
  cases List.append_cancel_left same
  exact (secluded.reaches_stateRoom stands).openToWrite_eq_ok short
    (secluded.noLink _ (.inr (.inl isLock)))

theorem replaceFile_eq {bytes : List UInt8} : disk.replaceFile project.stateFile bytes
    = (Disk.checkReplace project.stateFile (disk.entry? home.stateFile)).map fun _ =>
        disk.put home.stateFile (.file bytes) := by
  rw [stateFile_eq, stateFile_eq, (secluded.reaches_stateRoom stands).replaceFile_eq (by decide)]

theorem find_stateFile_eq : disk.find project.stateFile = (do
    Disk.checkPathText project.stateFile.text
    match disk.entry? home.stateFile with
    | some entry => .ok entry
    | none => .error .notFound) := by
  have noLink := secluded.noLink home.stateFile (.inr (.inr (.inl rfl)))
  rw [stateFile_eq, stateFile_eq] at *
  exact (secluded.reaches_stateRoom stands).find_eq (by decide) noLink

end Secluded

end StaticSite.Project
