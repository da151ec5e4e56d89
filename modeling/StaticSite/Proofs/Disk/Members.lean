import StaticSite.Proofs.Disk.Changing
import StaticSite.Proofs.Disk.Descending

/-!
# Names in a directory

A path leads to a directory, and a name in it is no link.  What is looked up, made, opened or
replaced under that name then depends on nothing but the entry that has it.
-/

namespace StaticSite.Disk

/-- The path `front` leads to the directory at `here`. -/
structure Reaches (disk : Disk) (front here : Path) : Prop where
  leads : ∃ left, disk.Leads maxLinks (front.map .enter) [] left here
  inside : disk.entry? here = some .directory

/-- The disk with an entry where nothing stood before. -/
def fill (disk : Disk) (place : Path) (entry : Entry) : Disk :=
  if disk.entry? place = none then disk.put place entry else disk

variable {disk made larger : Disk} {front here place other : Path} {name : Text} {entry : Entry}
  {fault : Fault}

theorem Reaches.mono (reaches : disk.Reaches front here) (within : disk.Within larger) :
    larger.Reaches front here := by
  obtain ⟨⟨left, leads⟩, inside⟩ := reaches
  exact ⟨⟨left, leads.mono within⟩, within _ _ inside⟩

theorem fill_of_free (free : disk.entry? place = none) :
    disk.fill place entry = disk.put place entry := if_pos free

theorem fill_of_stands {held : Entry} (stands : disk.entry? place = some held) :
    disk.fill place entry = disk := by
  rw [fill, stands, if_neg (Option.some_ne_none held)]

theorem entry?_fill : Disk.entry? (disk.fill place entry) other
    = if other = place then some ((disk.entry? place).getD entry) else disk.entry? other := by
  cases found : disk.entry? place with
  | none => rw [fill_of_free found, entry?_put (nonempty_of_free found), Option.getD_none]
  | some held =>
    rw [fill_of_stands found, Option.getD_some]
    split
    · next same => rw [same, found]
    · rfl

theorem fill_fill (disk : Disk) (place : Path) (entry : Entry) :
    (disk.fill place entry).fill place entry = disk.fill place entry := by
  have stands :
      Disk.entry? (disk.fill place entry) place = some ((disk.entry? place).getD entry) := by
    rw [entry?_fill, if_pos rfl]
  exact fill_of_stands stands

/-- The disks hold the same at the place and below it. -/
def SameAt (first second : Disk) (place : Path) : Prop :=
  ∀ path, place <+: path → first.entry? path = second.entry? path

/-- A file that is opened for writing may be there already or not. -/
def AcceptsFile (disk : Disk) (place : Path) : Prop :=
  disk.entry? place = none ∨ disk.holdsFile place = true

/-- A directory that is asked for may be there already or not. -/
def AcceptsDirectory (disk : Disk) (place : Path) : Prop :=
  disk.entry? place = none ∨ disk.entry? place = some .directory

theorem AcceptsDirectory.fill (accepts : disk.AcceptsDirectory place) :
    Disk.entry? (disk.fill place .directory) place = some .directory := by
  rw [entry?_fill, if_pos rfl]
  rcases accepts with free | stands
  · rw [free, Option.getD_none]
  · rw [stands, Option.getD_some]

theorem AcceptsFile.fill (accepts : disk.AcceptsFile place) :
    (disk.fill place (.file [])).holdsFile place = true := by
  rw [holdsFile_eq_true, entry?_fill, if_pos rfl]
  rcases accepts with free | isFile
  · exact ⟨[], by rw [free, Option.getD_none]⟩
  · obtain ⟨bytes, stands⟩ := holdsFile_eq_true.1 isFile
    exact ⟨bytes, by rw [stands, Option.getD_some]⟩

/-- Whether a new file can be given a path that leads to no directory and names what stands
there. -/
def checkReplace (path : Path) (standing : Option Entry) : Except Fault Unit := do
  if '\x00' ∈ path.text then .error .invalidArgument
  checkPathText path.text
  if standing = some .directory then .error .isDirectory

section

variable (reaches : disk.Reaches front here) (short : Text.byteLength name ≤ maxNameBytes)

include reaches short

theorem Reaches.enter (stands : disk.entry? (here ++ [name]) = some .directory) :
    disk.Reaches (front ++ [name]) (here ++ [name]) := by
  obtain ⟨⟨left, leads⟩, inside⟩ := reaches
  refine ⟨⟨left, ?_⟩, stands⟩
  rw [List.map_append]
  exact leads.append (.enter inside short stands nofun .arrived)

theorem Reaches.placeOf_eq : disk.placeOf (front ++ [name])
    = (do checkPathText (Path.text (front ++ [name])); .ok (here ++ [name])) := by
  obtain ⟨⟨left, leads⟩, inside⟩ := reaches
  cases checked : checkPathText (Path.text (front ++ [name])) with
  | error fault => rw [placeOf, checked, Except.error_bind, Except.error_bind]
  | ok _ =>
    rw [Except.ok_bind]
    exact placeOf_snoc_eq_ok.2 ⟨checked, here, leads.follow, inside, short, rfl⟩

theorem Reaches.replaceFile_eq {bytes : List UInt8} : disk.replaceFile (front ++ [name]) bytes
    = (checkReplace (front ++ [name]) (disk.entry? (here ++ [name]))).map fun _ =>
        disk.put (here ++ [name]) (.file bytes) := by
  rw [replaceFile, checkReplace, reaches.placeOf_eq short]
  split
  · rfl
  · cases checkPathText (Path.text (front ++ [name])) with
    | error fault => rfl
    | ok _ =>
      simp only [Except.ok_bind]
      cases disk.entry? (here ++ [name]) with
      | none => rfl
      | some entry => cases entry <;> rfl

variable (noLink : ∀ target, disk.entry? (here ++ [name]) ≠ some (.link target))

include noLink

theorem Reaches.follow_eq (creating : Bool) :
    disk.follow creating maxLinks ((front ++ [name]).map .enter) []
      = if disk.entry? (here ++ [name]) = none ∧ creating = false then .error .notFound
        else .ok (here ++ [name]) := by
  obtain ⟨⟨left, leads⟩, inside⟩ := reaches
  -- The front leads to `here`, and one step is left from there.
  have noClose : (([] : List PathStep) == [.close]) = false := rfl
  rw [List.map_append, List.map_singleton, leads.follow_append, Disk.follow,
    if_neg (not_not_intro inside)]
  simp only [noClose, Bool.and_false, Bool.false_eq_true, if_false, Nat.not_lt.2 short]
  cases stands : disk.entry? (here ++ [name]) with
  | none => cases creating <;> simp
  | some entry =>
    cases entry with
    | link target => exact absurd stands (noLink target)
    | directory | file => simp [Disk.follow]

theorem Reaches.find_eq : disk.find (front ++ [name]) = (do
    checkPathText (Path.text (front ++ [name]))
    match disk.entry? (here ++ [name]) with
    | some entry => .ok entry
    | none => .error .notFound) := by
  rw [find]
  refine Except.bind_congr fun _ checked => ?_
  rw [resolve, checkCharacters_eq_ok.2 (checkPathText_eq_ok.1 checked).1, Except.ok_bind,
    reaches.follow_eq short noLink false]
  cases stands : disk.entry? (here ++ [name]) with
  | none => simp
  | some entry => simp [stands]

theorem Reaches.openToWrite_eq_ok : disk.openToWrite (front ++ [name]) = .ok (place, made) ↔
    checkPathText (Path.text (front ++ [name])) = .ok () ∧ disk.AcceptsFile (here ++ [name]) ∧
      place = here ++ [name] ∧ made = disk.fill (here ++ [name]) (.file []) := by
  rw [openToWrite, writeTarget, Except.bind_assoc, Except.check_bind_eq_ok,
    reaches.follow_eq short noLink true, if_neg (by simp), Except.ok_bind]
  refine and_congr_right fun _ => ?_
  cases stands : disk.entry? (here ++ [name]) with
  | none =>
    rw [fill_of_free stands, AcceptsFile, stands]
    simp [@eq_comm _ place, @eq_comm _ made]
  | some entry =>
    rw [fill_of_stands stands, AcceptsFile, holdsFile, stands]
    cases entry <;> simp [@eq_comm _ place, @eq_comm _ made]

/-- What is above the name is there, so that nothing else is ever made. -/
theorem Reaches.makeDirectories_eq : disk.makeDirectories (front ++ [name])
    = match checkPathText (Path.text (front ++ [name])) with
      | .error fault => (.error fault, disk)
      | .ok () =>
          match disk.entry? (here ++ [name]) with
          | none => (.ok (), disk.put (here ++ [name]) .directory)
          | some .directory => (.ok (), disk)
          | some _ => (.error .alreadyExists, disk) := by
  have climbs : disk.makeDirectories (front ++ [name])
      = disk.makeClimbing (name :: front.reverse) := by
    rw [makeDirectories, List.reverse_append, List.reverse_singleton, List.singleton_append]
  have whole : (name :: front.reverse).reverse = front ++ [name] := by simp
  rw [climbs, makeClimbing]
  simp only [whole, ensureDirectory, makeDirectory, reaches.placeOf_eq short, isDirectory,
    reaches.find_eq short noLink]
  cases checked : checkPathText (Path.text (front ++ [name])) with
  | error fault =>
    -- The directory above would be made if it were missing, but that is not what is wrong.
    have : fault ≠ .notFound := by
      rintro rfl
      unfold checkPathText checkCharacters at checked
      split at checked
      · cases checked
      · dsimp only [Except.ok_bind] at checked
        split at checked <;> cases checked
    cases fault <;> first | rfl | exact absurd rfl this
  | ok _ =>
    cases stands : disk.entry? (here ++ [name]) with
    | none =>
      simp only [Except.ok_bind, stands]
      rfl
    | some entry =>
      cases entry with
      | link target => exact absurd stands (noLink target)
      | directory | file => simp [stands]

theorem Reaches.makeDirectories_eq_ok : disk.makeDirectories (front ++ [name]) = (.ok (), made) ↔
    checkPathText (Path.text (front ++ [name])) = .ok () ∧ disk.AcceptsDirectory (here ++ [name]) ∧
      made = disk.fill (here ++ [name]) .directory := by
  rw [reaches.makeDirectories_eq short noLink]
  cases checkPathText (Path.text (front ++ [name])) with
  | error fault => simp
  | ok _ =>
    cases stands : disk.entry? (here ++ [name]) with
    | none =>
      rw [fill_of_free stands, AcceptsDirectory, stands]
      simp [@eq_comm _ made]
    | some entry =>
      rw [fill_of_stands stands, AcceptsDirectory, stands]
      cases entry <;> simp [@eq_comm _ made]

/-- A directory that is refused leaves nothing behind. -/
theorem Reaches.makeDirectories_eq_error
    (refused : disk.makeDirectories (front ++ [name]) = (.error fault, made)) : made = disk := by
  rw [reaches.makeDirectories_eq short noLink] at refused
  split at refused
  · cases refused
    rfl
  · split at refused <;> cases refused
    rfl

end

end StaticSite.Disk
