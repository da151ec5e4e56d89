import Mathlib
import StaticSite.Project.Edit
import StaticSite.Proofs.Disk.Replacing
import StaticSite.Proofs.Disk.Spelling
import StaticSite.Proofs.LogicalName

/-!
# Files that are opened for editing

What a path text that can be edited leads to, and under which path it is opened: the canonical one,
or the one that is written if the canonical one is too long to be spelled.  A file that has been
read under that path is written under it.
-/

namespace StaticSite

namespace PathText

/-- Dots take nothing onto the stack of names, and nothing from it. -/
theorem reduce_filter_here (stack : List Text) (parts : List PathPart) :
    reduce stack parts = reduce stack (parts.filter (· ≠ .here)) := by
  induction parts generalizing stack with
  | nil => rfl
  | cons part rest ih =>
      cases part with
      | here =>
          rw [reduce, ih, List.filter_cons_of_neg (by simp)]
      | root =>
          rw [List.filter_cons_of_pos (by simp), reduce, reduce, ih]
      | name text =>
          rw [List.filter_cons_of_pos (by simp), reduce, reduce, ih]
      | up =>
          rw [List.filter_cons_of_pos (by simp)]
          cases stack with
          | nil => rfl
          | cons top stack => rw [reduce, reduce, ih]

theorem map_name_filterMap_name? {parts : List PathPart}
    (allNames : ∀ part ∈ parts, (name? part).isSome = true) :
    (parts.filterMap name?).map .name = parts := by
  induction parts with
  | nil => rfl
  | cons part rest ih =>
      have later := ih fun other isIn => allNames other (List.mem_cons_of_mem _ isIn)
      cases part with
      | name text => rw [List.filterMap_cons_some (name?.eq_1 text), List.map_cons, later]
      | root | here | up => exact absurd (allNames _ List.mem_cons_self) (by decide)

end PathText

namespace Project

variable {disk after : Disk} {project : Project} {rooms : List Text} {root opened place : Path}
  {file source : Text} {names : List Text} {trouble : Disk.WriteTrouble} {bytes : List UInt8}
  {fault : Fault}

/-- The path text leads through a directory that can be edited, to something below it. -/
theorem normalize?_of_isEditableName (editable : isEditableName rooms file = true) :
    ∃ room below, PathText.normalize? file = some (room :: below) ∧ room ∈ rooms := by
  unfold isEditableName at editable
  split at editable
  · next room first rest split =>
      rw [Bool.and_eq_true, List.contains_iff_mem, List.all_eq_true] at editable
      obtain ⟨allowed, allNames⟩ := editable
      refine ⟨room, (first :: rest).filterMap PathText.name?, ?_, allowed⟩
      have reduced : PathText.reduce [] (PathText.parts file)
          = some (((first :: rest).filterMap PathText.name?).reverse ++ [room]) := by
        rw [PathText.reduce_filter_here, split, PathText.reduce]
        conv_lhs => rw [← PathText.map_name_filterMap_name? allNames]
        rw [PathText.reduce_names]
      rw [PathText.normalize?, reduced, Option.map_some, List.reverse_append, List.reverse_reverse]
      rfl
  · cases editable

/-- The path text names something in one of the rooms, and that leads to the file at `place`, whose
text is `source`.  The file is opened at `opened`. -/
structure Opens (disk : Disk) (project : Project) (rooms : List Text) (file : Text)
    (root : Path) (names : List Text) (opened place : Path) (source : Text) : Prop where
  atRoot : disk.canonical project.root = .ok root
  editable : isEditableName rooms file = true
  named : PathText.normalize? file = some names
  leads : disk.resolve (root ++ names) = .ok place
  reached : opened = place ∧ disk.canonical (root ++ names) = .ok place ∧ root <+: place ∨
    opened = root ++ names ∧ disk.Overlong root (root ++ names)
  readable : Disk.checkPathText opened.text = .ok ()
  holds : ∃ bytes, disk.entry? place = some (.file bytes) ∧ Utf8.decode? bytes = some source

theorem opens_of_editablePlace (located : project.editablePlace disk rooms file = .ok opened)
    (read : disk.readText opened = .ok source) :
    ∃ root names place, Opens disk project rooms file root names opened place source := by
  obtain ⟨bytes, isFile, decoded⟩ := Disk.readText_eq_ok.1 read
  have readable := (Disk.find_eq_ok.1 (Disk.readBytes_eq_ok.1 isFile)).1
  unfold editablePlace at located
  split at located
  · next editable =>
    split at located
    · cases located
    · next root atRoot =>
      split at located
      · next target contained =>
        split at located
        · cases located
          obtain ⟨names, place, named, _, leads, stands, _, reached⟩ :=
            Disk.read_target contained isFile
          exact ⟨root, names, place, atRoot, editable, named, leads, reached, readable, bytes,
            stands, decoded⟩
        · cases located
      · cases located
  · cases located

/-- Nothing but the path text decides whether a project that is there has a file to edit. -/
theorem editablePlace_eq_error {error : SiteError}
    (atRoot : disk.canonical project.root = .ok root)
    (refused : project.editablePlace disk rooms file = .error error) :
    error = .notEditable file := by
  unfold editablePlace at refused
  rw [atRoot] at refused
  dsimp only at refused
  split at refused
  · split at refused
    · split at refused <;> cases refused
      rfl
    · cases refused
      rfl
  · cases refused
    rfl

theorem isFile_of_editablePlace (located : project.editablePlace disk rooms file = .ok opened) :
    disk.isFile opened = true := by
  unfold editablePlace at located
  split at located
  · split at located
    · cases located
    · split at located
      · split at located
        · cases located
          assumption
        · cases located
      · cases located
  · cases located

namespace Opens

variable (opens : Opens disk project rooms file root names opened place source)

include opens

theorem inRoom : ∃ room ∈ rooms, ∃ below, names = room :: below := by
  obtain ⟨room, below, named, allowed⟩ := normalize?_of_isEditableName opens.editable
  exact ⟨room, allowed, below, Option.some.inj (opens.named.symm.trans named)⟩

theorem ne_nil : place ≠ [] := by
  obtain ⟨bytes, stands, _⟩ := opens.holds
  rintro rfl
  rw [Disk.entry?_nil] at stands
  cases stands

/-- The file is outside the project only if it is opened under a path that cannot be spelled. -/
theorem inside_or_overlong : root <+: place ∨ disk.Overlong root (root ++ names) :=
  opens.reached.imp (fun inside => inside.2.2) fun overlong => overlong.2

/-- What is opened is the file. -/
theorem leads_opened : disk.resolve opened = .ok place := by
  rcases opens.reached with ⟨rfl, _⟩ | ⟨rfl, _⟩
  · exact Disk.resolve_eq_ok.2 ⟨(Disk.checkPathText_eq_ok.1 opens.readable).1,
      (Disk.isCanonical_of_resolve opens.leads).follow false⟩
  · exact opens.leads

theorem readBytes : ∃ bytes, disk.readBytes opened = .ok bytes ∧
    Utf8.decode? bytes = some source := by
  obtain ⟨bytes, stands, decoded⟩ := opens.holds
  exact ⟨bytes, Disk.readBytes_eq_ok.2
    (Disk.find_eq_ok.2 ⟨opens.readable, place, opens.leads_opened, stands⟩), decoded⟩

theorem editablePlace_eq : project.editablePlace disk rooms file = .ok opened := by
  obtain ⟨bytes, read, _⟩ := opens.readBytes
  have isFile : disk.isFile opened = true := by
    rw [Disk.isFile, Disk.readBytes_eq_ok.1 read]
  -- It is located in one of two ways: by its canonical path, or as written where that is too long.
  have located : disk.contain? root file = some ⟨opened, PathText.join names⟩ := by
    rcases opens.reached with ⟨rfl, spelled, inside⟩ | ⟨rfl, _, long⟩
    · simp [Disk.contain?, opens.named, spelled, inside]
    · simp [Disk.contain?, opens.named, long]
  simp [editablePlace, opens.editable, opens.atRoot, located, isFile]

/-- The file can be opened for writing as it was for reading. -/
theorem openToWrite_eq : disk.openToWrite opened = .ok (place, disk) := by
  obtain ⟨bytes, stands, _⟩ := opens.holds
  have isFile : disk.holdsFile place = true := Disk.holdsFile_eq_true.2 ⟨bytes, stands⟩
  obtain ⟨_, leads⟩ := Disk.follow_eq_ok.1 (Disk.resolve_eq_ok.1 opens.leads_opened).2
  exact Disk.openToWrite_eq_self.2
    ⟨Disk.writeTarget_eq_ok.2 ⟨opens.readable, leads.follow_file isFile true⟩, isFile⟩

/-- Without a link on the way the file is the one that the names say, in the room. -/
theorem inRoom_of_unlinked (unlinked : disk.Unlinked root names) :
    ∃ room ∈ rooms, root ++ [room] <+: place := by
  obtain ⟨room, allowed, below, rfl⟩ := opens.inRoom
  have isRoot := Disk.isCanonical_of_canonical opens.atRoot
  refine ⟨room, allowed, below, ?_⟩
  rw [Disk.eq_append_of_unlinked isRoot opens.leads unlinked, List.append_assoc,
    List.singleton_append]

end Opens

/-! ## Carrying edits out -/

variable {text : Text}

/-- A planned edit succeeds exactly if the system lets the file be written. -/
theorem carryOut_eq_ok (opens : disk.openToWrite opened = .ok (place, disk)) :
    carryOut disk (.ok (opened, text)) trouble = (.ok (), after) ↔
      trouble.Allows (Utf8.encode text) ∧ after = disk.put place (.file (Utf8.encode text)) := by
  rw [← Disk.writeBytes_eq_ok_iff opens]
  unfold carryOut Disk.writeText
  dsimp only
  generalize disk.writeBytes opened (Utf8.encode text) trouble = written
  obtain ⟨result, left⟩ := written
  cases result <;> simp [Except.mapError]

/-- It fails only where the system stops the write. -/
theorem carryOut_eq_error {error : SiteError}
    (opens : disk.openToWrite opened = .ok (place, disk)) :
    carryOut disk (.ok (opened, text)) trouble = (.error error, after) ↔
      ∃ fault, error = .io fault ∧
        disk.StopsWrite place (Utf8.encode text) trouble fault after := by
  simp only [← Disk.writeBytes_eq_error_iff opens]
  unfold carryOut Disk.writeText
  dsimp only
  generalize disk.writeBytes opened (Utf8.encode text) trouble = written
  obtain ⟨result, left⟩ := written
  cases result <;> simp [Except.mapError, eq_comm]

end Project

end StaticSite
