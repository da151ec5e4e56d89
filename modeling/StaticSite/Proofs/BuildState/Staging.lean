import Mathlib.Data.List.Nodup
import Mathlib.Data.List.Perm.Subperm
import StaticSite.BuildState.Store
import StaticSite.Proofs.Disk.Interrupted
import StaticSite.Proofs.Disk.Replacing
import StaticSite.Proofs.Text.Numerals

/-!
# Temporary files

A temporary file has a name under which there was nothing.  As long as it is there, it is all that
has changed on the disk: to rename it comes to the same as to put the new file at its path in one
step, and to remove it brings back the old disk.
-/

namespace StaticSite

namespace Table

variable {κ β : Type} [LT κ] [DecidableEq κ] [DecidableLT κ]

/-- A row is placed among others, and these are what is kept. -/
theorem filter_insertRow (keep : κ → Bool) {key : κ} {value : β} {rows : List (κ × β)}
    (rejected : keep key = false) (kept : ∀ row ∈ rows, keep row.1 = true) :
    (insertRow key value rows).filter (fun row => keep row.1) = rows := by
  induction rows with
  | nil => simp [insertRow, rejected]
  | cons row rest ih =>
    have keepsRow := kept row List.mem_cons_self
    have keepsRest : rest.filter (fun row => keep row.1) = rest :=
      List.filter_eq_self.2 fun other isIn => kept other (List.mem_cons_of_mem _ isIn)
    have different : key ≠ row.1 := by
      rintro rfl
      rw [rejected] at keepsRow
      cases keepsRow
    rw [insertRow, if_neg different]
    split
    · simp [rejected, keepsRow, keepsRest]
    · rw [List.filter_cons_of_pos (by simpa using keepsRow),
        ih fun other isIn => kept other (List.mem_cons_of_mem _ isIn)]

end Table

namespace Disk

variable {disk : Disk} {path place here : Path} {entry : Entry} {bytes : List UInt8}

theorem temporaryName_injective : Function.Injective temporaryName := by
  intro first second same
  have same := congrArg (Numeral.value 10) (List.append_cancel_left same)
  rwa [Numeral.value_padded, Numeral.value_padded] at same

/-- Nothing stands at the place or below it. -/
def IsFresh (disk : Disk) (place : Path) : Prop :=
  ∀ row ∈ disk.entries.rows, ¬ place <+: row.1

theorem IsFresh.free (fresh : disk.IsFresh place) (nonempty : place ≠ []) :
    disk.entry? place = none := by
  unfold entry?
  rw [if_neg nonempty, Table.get?, Option.map_eq_none_iff, List.find?_eq_none]
  intro row isRow
  rw [decide_eq_true_eq]
  rintro rfl
  exact fresh row isRow List.prefix_rfl

theorem IsFresh.drop_put (fresh : disk.IsFresh place) :
    (disk.put place entry).drop place = disk := by
  have outside : ∀ row ∈ disk.entries.rows, (!place.isPrefixOf row.1) = true := by
    intro row isRow
    simpa [← Bool.not_eq_true, List.isPrefixOf_iff_prefix] using fresh row isRow
  have itself : (!place.isPrefixOf place) = false := by simp
  unfold put drop Table.filter Table.insert
  congr 2
  exact Table.filter_insertRow (fun other => !place.isPrefixOf other) itself outside

/-- There are fewer names in the directory than names to choose from. -/
theorem isFresh_freeName (disk : Disk) (here : Path) :
    disk.IsFresh (here ++ [disk.freeName here]) := by
  unfold freeName
  dsimp only
  cases chosen : (List.range (disk.entries.rows.length + 1)).find? fun number =>
      disk.entries.rows.all fun row => !(here ++ [temporaryName number]).isPrefixOf row.1 with
  | some number =>
    have free := List.find?_some chosen
    intro row isRow below
    rw [Option.getD_some] at below
    have outside := List.all_eq_true.1 free row isRow
    rw [List.isPrefixOf_iff_prefix.2 below] at outside
    cases outside
  | none =>
    -- Otherwise each of the names is that of some row, and no two of them are the same.
    have taken := List.find?_eq_none.1 chosen
    have names : (List.range (disk.entries.rows.length + 1)).map temporaryName
        ⊆ disk.entries.rows.filterMap (·.1[here.length]?) := by
      intro name isName
      obtain ⟨number, isNumber, rfl⟩ := List.mem_map.1 isName
      have hit := taken number isNumber
      simp only [List.all_eq_true, not_forall, Bool.not_eq_true', Bool.not_eq_false,
        List.isPrefixOf_iff_prefix] at hit
      obtain ⟨row, isRow, rest, split⟩ := hit
      refine List.mem_filterMap.2 ⟨row, isRow, ?_⟩
      simp [← split]
    have different : ((List.range (disk.entries.rows.length + 1)).map temporaryName).Nodup :=
      List.nodup_range.map temporaryName_injective
    have few := (List.subperm_of_subset different names).length_le
    have fewer := few.trans (List.length_filterMap_le _ _)
    rw [List.length_map, List.length_range] at fewer
    omega

/-- To rename a file that was not there before comes to putting it at its path in one step. -/
theorem IsFresh.renameFile_put (fresh : disk.IsFresh place) (nonempty : place ≠ []) :
    (disk.put place (.file bytes)).renameFile place path = disk.replaceFile path bytes := by
  rw [renameFile, entry?_put_self nonempty]
  dsimp only
  rw [fresh.drop_put]

/-- In a directory that is there a temporary file can be made. -/
theorem writeTemporary_of_isDirectory (room : disk.isDirectory path = true)
    (bytes : List UInt8) : ∃ here number, disk.Reaches path here ∧
      disk.IsFresh (here ++ [temporaryName number]) ∧
      disk.writeTemporary path bytes = .ok (here ++ [temporaryName number],
        disk.put (here ++ [temporaryName number]) (.file bytes)) := by
  obtain ⟨_, here, canonical, inside⟩ := find_eq_ok.1 (isDirectory_eq_true.1 room)
  obtain ⟨number, isName⟩ : ∃ number, disk.freeName here = temporaryName number := ⟨_, rfl⟩
  refine ⟨here, number, ⟨follow_eq_ok.1 (resolve_eq_ok.1 canonical).2, inside⟩,
    isName ▸ isFresh_freeName disk here, ?_⟩
  simp only [writeTemporary, look, canonical, Except.ok_bind, if_pos inside, isName]

end Disk

/-- What the first of two disks holds of the locked files does not matter if the second holds fewer.
-/
theorem Host.withDisk_withDisk {host : Host} {first second : Disk}
    (within : second.Within first) : (host.withDisk first).withDisk second
      = host.withDisk second := by
  have kept : ∀ held ∈ host.locks,
      (first.holdsFile held.place && second.holdsFile held.place)
        = second.holdsFile held.place := by
    intro held _
    cases isFile : second.holdsFile held.place with
    | false => exact Bool.and_false _
    | true =>
      obtain ⟨bytes, stands⟩ := Disk.holdsFile_eq_true.1 isFile
      rw [Disk.holdsFile_eq_true.2 ⟨bytes, within _ _ stands⟩]
      rfl
  simp only [withDisk, List.filter_filter]
  congr 1
  exact List.filter_congr fun held isHeld => (Bool.and_comm _ _).trans (kept held isHeld)

namespace BuildState

variable {host after : Host} {disk staged : Disk} {path temporary : Path} {state : BuildState}
  {trouble : StoreTrouble} {result : Except SiteError Unit} {error : SiteError}

/-! ## Without trouble -/

/-- The temporary file is all that is new. -/
theorem stageFile_of_isDirectory (room : disk.isDirectory path.parent = true)
    (state : BuildState) : ∃ temporary, disk.IsFresh temporary ∧ temporary ≠ [] ∧
      stageFile disk path state
        = (.ok temporary, disk.put temporary (.file (Utf8.encode state.write))) := by
  obtain ⟨here, number, _, fresh, made⟩ :=
    Disk.writeTemporary_of_isDirectory room (Utf8.encode state.write)
  refine ⟨_, fresh, by simp, ?_⟩
  simp only [stageFile, Disk.Room.take, Fault.check, Except.ok_bind, made]
  rfl

/-- What replacing the state file comes to where its directory is there.  The file is put in its
place in one step or not at all, and only then it can turn out that the directory is gone. -/
theorem writeFile_eq_of_isDirectory (room : host.disk.isDirectory path.parent = true)
    (state : BuildState) : writeFile host path state
      = match host.disk.replaceFile path (Utf8.encode state.write) with
        | .error fault => (.error (.stateWrite (.persist fault)), host.withDisk host.disk)
        | .ok disk =>
            let host := ((host.withDisk host.disk).forgetLocks path).withDisk disk
            match disk.find path.parent with
            | .error fault => (.error (.stateWrite (.syncParent fault)), host)
            | .ok _ => (.ok (), host) := by
  obtain ⟨temporary, fresh, nonempty, isStaged⟩ := stageFile_of_isDirectory room state
  have within : host.disk.Within (host.disk.put temporary (.file (Utf8.encode state.write))) :=
    Disk.within_put (fresh.free nonempty)
  rw [writeFile, isStaged]
  dsimp only
  simp only [nameFile, Host.disk_withDisk, Fault.check, Except.ok_bind,
    fresh.renameFile_put nonempty, giveUp, Bool.false_eq_true, if_false, fresh.drop_put,
    Host.withDisk_withDisk within]
  cases host.disk.replaceFile path (Utf8.encode state.write) with
  | error fault => rfl
  | ok disk => cases found : disk.find path.parent <;> simp only [found] <;> rfl

/-! ## With trouble -/

theorem stageFile_of_trouble
    (isStaged : stageFile disk path state trouble = (.ok temporary, staged)) :
    stageFile disk path state = (.ok temporary, staged) := by
  unfold stageFile at isStaged
  generalize taken : Disk.Room.take (Utf8.encode state.write) trouble.room = outcome at isStaged
  obtain ⟨written, arrived⟩ := outcome
  dsimp only at isStaged
  split at isStaged
  · cases isStaged
  · next made =>
    obtain ⟨_, made⟩ := Except.check_bind_eq_ok.1 made
    split at isStaged
    · cases isStaged
    · next passed =>
      cases isStaged
      cases written with
      | error fault => cases passed
      | ok _ =>
        obtain rfl := Disk.Room.take_eq_ok taken
        simp only [stageFile, Disk.Room.take, Fault.check, Except.ok_bind, made]
        rfl

theorem stageFile_ne_syncParent (fault : Fault) :
    stageFile disk path state trouble ≠ (.error (.stateWrite (.syncParent fault)), staged) := by
  intro failed
  unfold stageFile at failed
  generalize Disk.Room.take (Utf8.encode state.write) trouble.room = outcome at failed
  obtain ⟨written, arrived⟩ := outcome
  dsimp only at failed
  split at failed
  · cases failed
  · split at failed
    · next refused =>
      cases failed
      cases written with
      | error fault => cases refused
      | ok _ => cases sync : trouble.sync <;> rw [sync] at refused <;> cases refused
    · cases failed

/-- What an update comes to that has replaced the state file. -/
inductive HasReplaced : Except SiteError Unit → Prop where
  | ok : HasReplaced (.ok ())
  | lost (fault : Fault) : HasReplaced (.error (.stateWrite (.syncParent fault)))

/-- The results agree, or the system has refused no more than to write out the directory. -/
def StoreTrouble.Follows (trouble : StoreTrouble) (result result' : Except SiteError Unit) : Prop :=
  result = result' ∨ result' = .ok () ∧ ∃ lost, trouble.parentSync = some lost ∧
    result = .error (.stateWrite (.syncParent lost))

theorem StoreTrouble.Follows.replaced {result result' : Except SiteError Unit}
    (follows : trouble.Follows result result') (replaced : HasReplaced result) :
    HasReplaced result' := by
  rcases follows with rfl | ⟨rfl, _⟩
  · exact replaced
  · exact .ok

theorem nameFile_of_replaced (named : nameFile host path temporary trouble = (result, after))
    (replaced : HasReplaced result) :
    ∃ result', nameFile host path temporary = (result', after) ∧
      trouble.Follows result result' := by
  unfold nameFile at named
  split at named
  · cases named
    cases replaced
  · next renamed =>
    obtain ⟨_, renamed⟩ := Except.check_bind_eq_ok.1 renamed
    dsimp only at named
    simp only [nameFile, Fault.check, Except.ok_bind, renamed]
    cases found : Disk.find _ path.parent with
    | error fault =>
      rw [found] at named
      cases named
      exact ⟨_, rfl, .inl rfl⟩
    | ok entry =>
      rw [found] at named
      cases sync : trouble.parentSync with
      | none =>
        rw [sync] at named
        cases named
        exact ⟨_, rfl, .inl rfl⟩
      | some fault =>
        rw [sync] at named
        cases named
        exact ⟨_, rfl, .inr ⟨rfl, fault, sync, rfl⟩⟩

/-- A state file that is replaced although something could be refused is replaced in the same way if
nothing is. -/
theorem writeFile_of_replaced (written : writeFile host path state trouble = (result, after))
    (replaced : HasReplaced result) :
    ∃ result', writeFile host path state = (result', after) ∧ trouble.Follows result result' := by
  unfold writeFile at written ⊢
  cases isStaged : stageFile host.disk path state trouble with
  | mk outcome staged =>
  rw [isStaged] at written
  cases outcome with
  | error error =>
    -- No temporary file was named, so this is not an error of a file that is in its place.
    cases written
    cases replaced with
    | lost fault => exact absurd isStaged (stageFile_ne_syncParent fault)
  | ok temporary =>
    rw [stageFile_of_trouble isStaged]
    exact nameFile_of_replaced written replaced

/-- What is left of a temporary file that was given up: nothing, or the file if it cannot be
removed. -/
def Abandons (disk after : Disk) (path : Path) (trouble : StoreTrouble) : Prop :=
  after = disk ∨ trouble.keeps = true ∧ ∃ here number bytes, disk.Reaches path.parent here ∧
    disk.IsFresh (here ++ [Disk.temporaryName number]) ∧
    after = disk.put (here ++ [Disk.temporaryName number]) (.file bytes)

theorem abandons_giveUp {here : Path} {number : Nat} {bytes : List UInt8}
    (reaches : disk.Reaches path.parent here)
    (fresh : disk.IsFresh (here ++ [Disk.temporaryName number])) :
    Abandons disk (giveUp (disk.put (here ++ [Disk.temporaryName number]) (.file bytes))
      (here ++ [Disk.temporaryName number]) trouble) path trouble := by
  unfold giveUp
  split
  · next keeps => exact .inr ⟨keeps, here, number, bytes, reaches, fresh, rfl⟩
  · exact .inl fresh.drop_put

/-- What the system refuses of a state that is stored once the lock file is open. -/
inductive StoreTrouble.Refuses (trouble : StoreTrouble) : StateWriteFault → Prop where
  | locking {path : Path} {fault : Fault} (refused : trouble.lock.locking = some fault) :
      Refuses trouble (.lock (.io path .lockFile fault))
  | creation {fault : Fault} (refused : trouble.creation = some fault) :
      Refuses trouble (.createTemporary fault)
  | writing {count : Nat} {fault : Fault} (refused : trouble.room = some (count, fault)) :
      Refuses trouble (.writeTemporary fault)
  | sync {fault : Fault} (refused : trouble.sync = some fault) :
      Refuses trouble (.syncTemporary fault)
  | naming {fault : Fault} (refused : trouble.naming = some fault) :
      Refuses trouble (.persist fault)

theorem StoreTrouble.not_refuses {fault : StateWriteFault} : ¬ StoreTrouble.Refuses {} fault := by
  intro refuses
  cases refuses with
  | locking refused | creation refused | writing refused | sync refused | naming refused =>
    cases refused

/-- In a directory that is there a temporary file is written, or the system has refused that. -/
theorem stageFile_cases (room : disk.isDirectory path.parent = true) (state : BuildState)
    (trouble : StoreTrouble) :
    (∃ fault after, stageFile disk path state trouble = (.error (.stateWrite fault), after) ∧
      trouble.Refuses fault ∧ Abandons disk after path trouble) ∨
    ∃ here number, disk.Reaches path.parent here ∧
      disk.IsFresh (here ++ [Disk.temporaryName number]) ∧
      stageFile disk path state trouble = (.ok (here ++ [Disk.temporaryName number]),
        disk.put (here ++ [Disk.temporaryName number]) (.file (Utf8.encode state.write))) := by
  unfold stageFile
  generalize taken : Disk.Room.take (Utf8.encode state.write) trouble.room = outcome
  obtain ⟨written, arrived⟩ := outcome
  dsimp only
  cases creation : trouble.creation with
  | some fault => exact .inl ⟨_, _, rfl, .creation creation, .inl rfl⟩
  | none =>
    obtain ⟨here, number, reaches, fresh, made⟩ := Disk.writeTemporary_of_isDirectory room arrived
    simp only [Fault.check, Except.ok_bind, made]
    cases written with
    | error fault =>
      obtain ⟨count, refused, _⟩ := Disk.Room.take_eq_error taken
      exact .inl ⟨_, _, rfl, .writing refused, abandons_giveUp reaches fresh⟩
    | ok _ =>
      obtain rfl := Disk.Room.take_eq_ok taken
      cases sync : trouble.sync with
      | some fault => exact .inl ⟨_, _, rfl, .sync sync, abandons_giveUp reaches fresh⟩
      | none => exact .inr ⟨here, number, reaches, fresh, rfl⟩

end BuildState

end StaticSite
