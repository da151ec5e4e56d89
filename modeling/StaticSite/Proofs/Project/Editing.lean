import Mathlib
import StaticSite.Proofs.Disk.Descending
import StaticSite.Proofs.Project.Provenance

/-!
# What edits change

An edit changes one file: the one that its path text leads to.  The text names something in a
directory that can be edited, but which directory the file itself is in is not asked.  So a link in
such a directory opens any other file of the project, and files outside that lie so deep that their
paths cannot be spelled; only a link does.
-/

namespace StaticSite.Project

variable {disk after : Disk} {project : Project} {rooms : List Text} {root place : Path}
  {file path source text : Text} {index : Nat} {trouble : Disk.WriteTrouble} {error : SiteError}

/-! ## Plans -/

/-- A deletion is planned exactly for the index of an include in a file that is opened. -/
theorem planDeletion_eq_ok : project.planDeletion disk file index = .ok (place, text) ↔
    ∃ source token, project.editablePlace disk deletableRooms file = .ok place ∧
      disk.readText place = .ok source ∧ (tokenize source)[index]? = some token ∧
      token.kind = .inclusion ∧ text = token.removeFrom source := by
  unfold planDeletion
  simp only [Except.bind_eq_ok, Except.mapError_eq_ok]
  constructor
  · rintro ⟨opened, located, source, read, planned⟩
    split at planned
    · cases planned
    · next token found =>
      split at planned
      · next kind =>
        cases planned
        exact ⟨source, token, located, read, found, kind, rfl⟩
      · cases planned
  · rintro ⟨source, token, located, read, found, kind, rfl⟩
    exact ⟨place, located, source, read, by simp only [found, kind, if_true]⟩

theorem planInsertion_eq_ok : project.planInsertion disk file path = .ok (place, text) ↔
    ∃ source, project.editablePlace disk insertableRooms file = .ok place ∧
      isPlainPartial path = true ∧ disk.readText place = .ok source ∧
      text = insertLine (includeLine path) source := by
  unfold planInsertion
  simp only [Except.bind_eq_ok]
  constructor
  · rintro ⟨opened, located, planned⟩
    split at planned
    · next plain =>
      obtain ⟨source, read, planned⟩ := Except.bind_eq_ok.1 planned
      cases planned
      exact ⟨source, located, plain, Except.mapError_eq_ok.1 read, rfl⟩
    · cases planned
  · rintro ⟨source, located, plain, read, rfl⟩
    exact ⟨place, located, by rw [if_pos plain, read]; rfl⟩

/-! ## Edits -/

/-- What an edit leaves: the disk as it was, or another content of the one file that was opened. -/
inductive ChangesOpened (disk : Disk) (project : Project) (rooms : List Text) (file : Text) :
    Disk → Prop where
  | unchanged : ChangesOpened disk project rooms file disk
  | content {root : Path} {names : List Text} {opened place : Path} {source : Text}
      (opens : Opens disk project rooms file root names opened place source)
      (bytes : List UInt8) : ChangesOpened disk project rooms file (disk.put place (.file bytes))

theorem changesOpened_of_carryOut {root opened : Path} {names : List Text}
    (opens : Opens disk project rooms file root names opened place source)
    {result : Except SiteError Unit}
    (carried : carryOut disk (.ok (opened, text)) trouble = (result, after)) :
    ChangesOpened disk project rooms file after := by
  cases result with
  | ok =>
    obtain ⟨_, rfl⟩ := (carryOut_eq_ok opens.openToWrite_eq).1 carried
    exact .content opens _
  | error error =>
    obtain ⟨fault, _, stops⟩ := (carryOut_eq_error opens.openToWrite_eq).1 carried
    cases stops with
    | unopened => exact .unchanged
    | cut => exact .content opens _

theorem deleteInclude_changes {result : Except SiteError Unit}
    (deleted : project.deleteInclude disk file index trouble = (result, after)) :
    ChangesOpened disk project deletableRooms file after := by
  unfold deleteInclude at deleted
  cases planned : project.planDeletion disk file index with
  | error error =>
    rw [planned] at deleted
    cases deleted
    exact .unchanged
  | ok plan =>
    obtain ⟨opened, text⟩ := plan
    rw [planned] at deleted
    obtain ⟨source, token, located, read, _⟩ := planDeletion_eq_ok.1 planned
    obtain ⟨root, names, place, opens⟩ := opens_of_editablePlace located read
    exact changesOpened_of_carryOut opens deleted

theorem insertInclude_changes {result : Except SiteError Unit}
    (inserted : project.insertInclude disk file path trouble = (result, after)) :
    ChangesOpened disk project insertableRooms file after := by
  unfold insertInclude at inserted
  cases planned : project.planInsertion disk file path with
  | error error =>
    rw [planned] at inserted
    cases inserted
    exact .unchanged
  | ok plan =>
    obtain ⟨opened, text⟩ := plan
    rw [planned] at inserted
    obtain ⟨source, located, _, read, _⟩ := planInsertion_eq_ok.1 planned
    obtain ⟨root, names, place, opens⟩ := opens_of_editablePlace located read
    exact changesOpened_of_carryOut opens inserted

/-- A deletion succeeds exactly for an include of a file that is opened, if the system lets the file
be written. -/
theorem deleteInclude_eq_ok : project.deleteInclude disk file index trouble = (.ok (), after) ↔
    ∃ root names opened place source token,
      Opens disk project deletableRooms file root names opened place source ∧
      (tokenize source)[index]? = some token ∧ token.kind = .inclusion ∧
      trouble.Allows (Utf8.encode (token.removeFrom source)) ∧
      after = disk.put place (.file (Utf8.encode (token.removeFrom source))) := by
  constructor
  · intro deleted
    unfold deleteInclude at deleted
    cases planned : project.planDeletion disk file index with
    | error error =>
      rw [planned] at deleted
      cases deleted
    | ok plan =>
      obtain ⟨opened, text⟩ := plan
      rw [planned] at deleted
      obtain ⟨source, token, located, read, found, kind, rfl⟩ := planDeletion_eq_ok.1 planned
      obtain ⟨root, names, place, opens⟩ := opens_of_editablePlace located read
      obtain ⟨allowed, rfl⟩ := (carryOut_eq_ok opens.openToWrite_eq).1 deleted
      exact ⟨root, names, opened, place, source, token, opens, found, kind, allowed, rfl⟩
  · rintro ⟨root, names, opened, place, source, token, opens, found, kind, allowed, rfl⟩
    have planned := planDeletion_eq_ok.2 ⟨source, token, opens.editablePlace_eq,
      Disk.readText_eq_ok.2 opens.readBytes, found, kind, rfl⟩
    rw [deleteInclude, planned]
    exact (carryOut_eq_ok opens.openToWrite_eq).2 ⟨allowed, rfl⟩

theorem insertInclude_eq_ok : project.insertInclude disk file path trouble = (.ok (), after) ↔
    ∃ root names opened place source,
      Opens disk project insertableRooms file root names opened place source ∧
      isPlainPartial path = true ∧
      trouble.Allows (Utf8.encode (insertLine (includeLine path) source)) ∧
      after = disk.put place (.file (Utf8.encode (insertLine (includeLine path) source))) := by
  constructor
  · intro inserted
    unfold insertInclude at inserted
    cases planned : project.planInsertion disk file path with
    | error error =>
      rw [planned] at inserted
      cases inserted
    | ok plan =>
      obtain ⟨opened, text⟩ := plan
      rw [planned] at inserted
      obtain ⟨source, located, plain, read, rfl⟩ := planInsertion_eq_ok.1 planned
      obtain ⟨root, names, place, opens⟩ := opens_of_editablePlace located read
      obtain ⟨allowed, rfl⟩ := (carryOut_eq_ok opens.openToWrite_eq).1 inserted
      exact ⟨root, names, opened, place, source, opens, plain, allowed, rfl⟩
  · rintro ⟨root, names, opened, place, source, opens, plain, allowed, rfl⟩
    have planned := planInsertion_eq_ok.2 ⟨source, opens.editablePlace_eq, plain,
      Disk.readText_eq_ok.2 opens.readBytes, rfl⟩
    rw [insertInclude, planned]
    exact (carryOut_eq_ok opens.openToWrite_eq).2 ⟨allowed, rfl⟩

/-- An edit succeeds exactly for a path text that opens a file which the system lets be written, and
whether it succeeds or fails, it changes that one file at most.  The file is inside the project,
unless it is opened under a path that cannot be spelled, and it takes a link on the way for it to be
outside the directories that can be edited. -/
theorem edits_change_opened_file (disk : Disk) (project : Project) (trouble : Disk.WriteTrouble) :
    (∀ file index after, project.deleteInclude disk file index trouble = (.ok (), after) ↔
      ∃ root names opened place source token,
        Opens disk project deletableRooms file root names opened place source ∧
        (tokenize source)[index]? = some token ∧ token.kind = .inclusion ∧
        trouble.Allows (Utf8.encode (token.removeFrom source)) ∧
        after = disk.put place (.file (Utf8.encode (token.removeFrom source)))) ∧
    (∀ file path after, project.insertInclude disk file path trouble = (.ok (), after) ↔
      ∃ root names opened place source,
        Opens disk project insertableRooms file root names opened place source ∧
        isPlainPartial path = true ∧
        trouble.Allows (Utf8.encode (insertLine (includeLine path) source)) ∧
        after = disk.put place (.file (Utf8.encode (insertLine (includeLine path) source)))) ∧
    (∀ file index result after,
      project.deleteInclude disk file index trouble = (result, after) →
        ChangesOpened disk project deletableRooms file after) ∧
    (∀ file path result after,
      project.insertInclude disk file path trouble = (result, after) →
        ChangesOpened disk project insertableRooms file after) ∧
    ∀ rooms file root names opened place source,
      Opens disk project rooms file root names opened place source →
        (root <+: place ∨ disk.Overlong root (root ++ names)) ∧
        (∀ bytes other, other ≠ place →
          Disk.entry? (disk.put place (.file bytes)) other = disk.entry? other) ∧
        (disk.Unlinked root names → ∃ room ∈ rooms, root ++ [room] <+: place) := by
  refine ⟨fun file index after => deleteInclude_eq_ok, fun file path after => insertInclude_eq_ok,
    fun file index result after => deleteInclude_changes,
    fun file path result after => insertInclude_changes,
    fun rooms file root names opened place source opens =>
      ⟨opens.inside_or_overlong, ?_, opens.inRoom_of_unlinked⟩⟩
  exact fun bytes other different => Disk.entry?_put_of_ne different

theorem twoFileSite_edits_change_opened_file :
    deleteInclude twoFileSite ⟨[]⟩ "templates/p.html".toList 1
        = (.ok (), twoFileSite.put [templatesName, "p.html".toList]
            (.file (Utf8.encode "<p></p>".toList))) ∧
      ∃ room ∈ deletableRooms, [room] <+: [templatesName, "p.html".toList] := by
  have opens : Opens twoFileSite ⟨[]⟩ deletableRooms "templates/p.html".toList []
      [templatesName, "p.html".toList] [templatesName, "p.html".toList]
      [templatesName, "p.html".toList] "<p>\x7b\x7b include \"c\" \x7d\x7d</p>".toList :=
    ⟨by cbv, by decide, by decide, by cbv, .inl ⟨rfl, by cbv, by decide⟩, by decide, Utf8.encode
      "<p>\x7b\x7b include \"c\" \x7d\x7d</p>".toList, by decide, by cbv⟩
  have linkFree : twoFileSite.LinkFree [] := by decide
  obtain ⟨deletes, _, _, _, stays⟩ := edits_change_opened_file twoFileSite ⟨[]⟩ {}
  refine ⟨(deletes _ _ _).2 ?_, (stays _ _ _ _ _ _ _ opens).2.2 (linkFree.unlinked _)⟩
  exact ⟨_, _, _, _, _, ⟨.inclusion, "\"c\"".toList, 3, 20⟩, opens, by cbv, rfl,
    Disk.WriteTrouble.allows_default _, by cbv⟩

/-- A site whose pages hold a link to the layouts. -/
def linkedLayoutsSite : Disk :=
  (((Disk.empty.put ["layouts".toList] .directory).put ["layouts".toList, "b".toList]
    (.file (Utf8.encode "\x7b\x7b include \"a\" \x7d\x7d".toList))).put [templatesName]
    .directory).put [templatesName, "l".toList] (.link "../layouts".toList)

theorem linkedLayoutsSite_layout_changes : ∃ after,
    deleteInclude linkedLayoutsSite ⟨[]⟩ "templates/l/b".toList 0 = (.ok (), after) ∧
      after.entry? ["layouts".toList, "b".toList] = some (.file []) ∧
      linkedLayoutsSite.entry? ["layouts".toList, "b".toList] ≠ some (.file []) ∧
      ∀ room ∈ deletableRooms, ¬ [room] <+: ["layouts".toList, "b".toList] := by
  refine ⟨linkedLayoutsSite.put ["layouts".toList, "b".toList] (.file []), by cbv, by decide,
    by decide, by decide⟩

end StaticSite.Project
