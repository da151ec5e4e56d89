import StaticSite.Proofs.Disk.Spelling
import StaticSite.Proofs.Disk.Trees

/-!
# Disks that look alike

Two disks look alike if they differ in nothing but what is in their files.  Look-ups never read a
file, so they come to the same place or the same fault on both.
-/

namespace StaticSite

/-- What shows of an entry from outside: everything but the content of a file. -/
def Entry.outline : Entry → Entry
  | .directory => .directory
  | .file _ => .file []
  | .link target => .link target

namespace Disk

/-- The same directories, links and file names. -/
def LooksLike (first second : Disk) : Prop :=
  ∀ path, (first.entry? path).map Entry.outline = (second.entry? path).map Entry.outline

variable {first second : Disk} {path place project root : Path}

namespace LooksLike

theorem missing (alike : first.LooksLike second) (free : first.entry? path = none) :
    second.entry? path = none := by
  have same := alike path
  rw [free] at same
  exact Option.map_eq_none_iff.1 same.symm

theorem directory (alike : first.LooksLike second) (stands : first.entry? path = some .directory) :
    second.entry? path = some .directory := by
  have same := alike path
  rw [stands] at same
  obtain ⟨entry, found, shows⟩ := Option.map_eq_some_iff.1 same.symm
  cases entry with
  | directory => exact found
  | file | link => cases shows

theorem link {target : Text} (alike : first.LooksLike second)
    (stands : first.entry? path = some (.link target)) :
    second.entry? path = some (.link target) := by
  have same := alike path
  rw [stands] at same
  obtain ⟨entry, found, shows⟩ := Option.map_eq_some_iff.1 same.symm
  cases entry with
  | link other =>
      cases shows
      exact found
  | directory | file => cases shows

theorem file {bytes : List UInt8} (alike : first.LooksLike second)
    (stands : first.entry? path = some (.file bytes)) :
    ∃ others, second.entry? path = some (.file others) := by
  have same := alike path
  rw [stands] at same
  obtain ⟨entry, found, shows⟩ := Option.map_eq_some_iff.1 same.symm
  cases entry with
  | file others => exact ⟨others, found⟩
  | directory | link => cases shows

theorem symm (alike : first.LooksLike second) : second.LooksLike first :=
  fun path => (alike path).symm

/-- Look-ups go the same way on disks that look alike. -/
theorem follow_eq (alike : first.LooksLike second) (creating : Bool) (links : Nat)
    (todo : List PathStep) (here : Path) :
    first.follow creating links todo here = second.follow creating links todo here := by
  fun_induction first.follow creating links todo here with
  | case1 links here => rw [Disk.follow]
  | case2 links here step rest outside =>
      have outside : second.entry? here ≠ some .directory := fun inside =>
        outside (alike.symm.directory inside)
      cases step <;> simp [Disk.follow, outside]
  | case3 links here rest inside ih | case4 links here rest inside ih
  | case5 links here rest inside ih =>
      have inside := alike.directory (Decidable.not_not.1 inside)
      simp [Disk.follow, inside, ih]
  | case6 links here rest inside name refused =>
      have inside := alike.directory (Decidable.not_not.1 inside)
      simp [Disk.follow, inside, refused]
  | case7 links here rest inside name allowed long =>
      have inside := alike.directory (Decidable.not_not.1 inside)
      simp [Disk.follow, inside, allowed, long]
  | case8 links here rest inside name allowed short missing free
  | case9 links here rest inside name allowed short missing free =>
      have inside := alike.directory (Decidable.not_not.1 inside)
      simp [Disk.follow, inside, allowed, short, alike.missing missing, free]
  | case10 here rest inside name allowed short target found =>
      have inside := alike.directory (Decidable.not_not.1 inside)
      simp [Disk.follow, inside, allowed, short, alike.link found]
  | case11 here rest inside name allowed short target found links ih =>
      have inside := alike.directory (Decidable.not_not.1 inside)
      simpa [Disk.follow, inside, allowed, short, alike.link found] using ih
  | case12 links here rest inside name allowed short entry noLink found ih =>
      have inside := alike.directory (Decidable.not_not.1 inside)
      -- A file may hold something else on the second disk, but nothing here asks what.
      cases entry with
      | directory => simp [Disk.follow, inside, allowed, short, alike.directory found, ih]
      | file =>
          obtain ⟨others, found⟩ := alike.file found
          simp [Disk.follow, inside, allowed, short, found, ih]
      | link target => exact absurd rfl (noLink target)

theorem resolve_eq (alike : first.LooksLike second) (path : Path) :
    first.resolve path = second.resolve path := by
  rw [resolve, resolve, alike.follow_eq]

/-- The same text is spelled on disks that look alike. -/
theorem spell_eq (alike : first.LooksLike second) (links : Nat) (todo : List PathStep)
    (here : Path) : first.spell links todo here = second.spell links todo here := by
  -- Where the steps lead depends on what kind of entry stands somewhere, never on its bytes.
  fun_induction first.spell links todo here with
  | case1 links here => rw [Disk.spell]
  | case2 links here name rest long => rw [Disk.spell, if_pos long]
  | case3 links here name rest fits outside =>
    rw [Disk.spell, if_neg fits, if_pos (mt alike.symm.directory outside)]
  | case4 links here name rest fits inside long =>
    have inside := alike.directory (Decidable.not_not.1 inside)
    rw [Disk.spell, if_neg fits, if_neg (not_not_intro inside), if_pos long]
  | case5 links here name rest fits inside short missing =>
    have inside := alike.directory (Decidable.not_not.1 inside)
    rw [Disk.spell, if_neg fits, if_neg (not_not_intro inside), if_neg short,
      alike.missing missing]
  | case6 here name rest fits inside short target found =>
    have inside := alike.directory (Decidable.not_not.1 inside)
    rw [Disk.spell, if_neg fits, if_neg (not_not_intro inside), if_neg short, alike.link found]
  | case7 here name rest fits inside short target found links ih =>
    have inside := alike.directory (Decidable.not_not.1 inside)
    rw [Disk.spell, if_neg fits, if_neg (not_not_intro inside), if_neg short, alike.link found]
    exact ih
  | case8 links here name rest fits inside short entry noLink found long =>
    have inside := alike.directory (Decidable.not_not.1 inside)
    rw [Disk.spell, if_neg fits, if_neg (not_not_intro inside), if_neg short]
    cases entry with
    | directory =>
      rw [alike.directory found]
      exact (if_pos long).symm
    | file =>
      obtain ⟨others, found⟩ := alike.file found
      rw [found]
      exact (if_pos long).symm
    | link target => exact absurd rfl (noLink target)
  | case9 links here name rest fits inside short entry noLink found fits' ih =>
    have inside := alike.directory (Decidable.not_not.1 inside)
    rw [Disk.spell, if_neg fits, if_neg (not_not_intro inside), if_neg short]
    cases entry with
    | directory =>
      rw [alike.directory found, ih]
      exact (if_neg fits').symm
    | file =>
      obtain ⟨others, found⟩ := alike.file found
      rw [found, ih]
      exact (if_neg fits').symm
    | link target => exact absurd rfl (noLink target)
  | case10 links here step rest noName outside =>
    have outside := mt alike.symm.directory outside
    cases step with
    | enter name => exact absurd rfl (noName name)
    | stay | close | up => simp [Disk.spell, outside]
  | case11 links here step rest noName inside ih =>
    have inside := alike.directory (Decidable.not_not.1 inside)
    cases step with
    | enter name => exact absurd rfl (noName name)
    | stay | close | up => simpa [Disk.spell, inside] using ih

theorem canonical_eq (alike : first.LooksLike second) (path : Path) :
    first.canonical path = second.canonical path := by
  rw [canonical, canonical, alike.spell_eq]

/-- What is found shows the same from outside. -/
theorem find_outline (alike : first.LooksLike second) (path : Path) :
    (first.find path).map Entry.outline = (second.find path).map Entry.outline := by
  rw [find, find, ← alike.resolve_eq]
  cases checkPathText path.text with
  | error fault => rfl
  | ok _ =>
    cases first.resolve path with
    | error fault => rfl
    | ok place =>
      have same := alike place
      simp only [Except.ok_bind]
      cases stands : first.entry? place with
      | none => rw [alike.missing stands]
      | some entry =>
        rw [stands] at same
        obtain ⟨other, found, shows⟩ := Option.map_eq_some_iff.1 same.symm
        rw [found]
        exact congrArg Except.ok shows.symm

theorem find_ok (alike : first.LooksLike second) {entry : Entry}
    (found : first.find path = .ok entry) :
    ∃ other, second.find path = .ok other ∧ entry.outline = other.outline := by
  have same := alike.find_outline path
  rw [found] at same
  cases found' : second.find path with
  | error fault =>
    rw [found'] at same
    cases same
  | ok other =>
    rw [found'] at same
    exact ⟨other, rfl, Except.ok.inj same⟩

theorem find_file {bytes : List UInt8} (alike : first.LooksLike second)
    (found : first.find path = .ok (.file bytes)) :
    ∃ others, second.find path = .ok (.file others) := by
  obtain ⟨other, found', shows⟩ := alike.find_ok found
  cases other with
  | file others => exact ⟨others, found'⟩
  | directory | link => cases shows

theorem find_directory (alike : first.LooksLike second)
    (found : first.find path = .ok .directory) : second.find path = .ok .directory := by
  obtain ⟨other, found', shows⟩ := alike.find_ok found
  cases other with
  | directory => exact found'
  | file | link => cases shows

theorem isFile_eq (alike : first.LooksLike second) (path : Path) :
    first.isFile path = second.isFile path := by
  rw [Bool.eq_iff_iff, isFile_eq_true, isFile_eq_true]
  exact ⟨fun ⟨_, found⟩ => alike.find_file found, fun ⟨_, found⟩ => alike.symm.find_file found⟩

theorem isDirectory_eq (alike : first.LooksLike second) (path : Path) :
    first.isDirectory path = second.isDirectory path := by
  rw [Bool.eq_iff_iff, isDirectory_eq_true, isDirectory_eq_true]
  exact ⟨alike.find_directory, alike.symm.find_directory⟩

theorem exists?_eq (alike : first.LooksLike second) (path : Path) :
    first.exists? path = second.exists? path := by
  have blind (found : Except Fault Entry) : (found.map Entry.outline).isOk = found.isOk := by
    cases found <;> rfl
  have same := congrArg Except.isOk (alike.find_outline path)
  rw [blind, blind] at same
  exact same

theorem directory_iff (alike : first.LooksLike second) :
    first.entry? path = some .directory ↔ second.entry? path = some .directory :=
  ⟨alike.directory, alike.symm.directory⟩

theorem holdsFile_eq (alike : first.LooksLike second) (path : Path) :
    first.holdsFile path = second.holdsFile path := by
  rw [Bool.eq_iff_iff, holdsFile_eq_true, holdsFile_eq_true]
  exact ⟨fun ⟨_, stands⟩ => alike.file stands, fun ⟨_, stands⟩ => alike.symm.file stands⟩

theorem placeOf_eq (alike : first.LooksLike second) (path : Path) :
    first.placeOf path = second.placeOf path := by
  simp only [placeOf, alike.follow_eq, ne_eq, alike.directory_iff]

theorem drop (alike : first.LooksLike second) (nonempty : place ≠ []) :
    (first.drop place).LooksLike (second.drop place) := by
  intro path
  rw [entry?_drop nonempty, entry?_drop nonempty]
  split
  · rfl
  · exact alike path

theorem isTree (alike : first.LooksLike second) (isTree : first.IsTree) : second.IsTree := by
  rintro ⟨path, entry⟩ isRow
  obtain rfl | nonempty := eq_or_ne path []
  · exact entry?_nil second
  · have stands := (mem_rows_iff nonempty).1 isRow
    have same := alike path
    rw [stands] at same
    obtain ⟨other, found, _⟩ := Option.map_eq_some_iff.1 same
    exact alike.directory (isTree (path, other) (mem_rows_of_stands found nonempty))

theorem contain?_eq (alike : first.LooksLike second) (root : Path) (relative : Text) :
    first.contain? root relative = second.contain? root relative := by
  simp only [contain?, alike.canonical_eq]

/-- A path reads the same on disks that look alike, if the file that is read does. -/
theorem readBytes_eq (alike : first.LooksLike second)
    (same : ∀ place bytes, first.readBytes path = .ok bytes → first.resolve path = .ok place →
      second.entry? place = some (.file bytes)) :
    first.readBytes path = second.readBytes path := by
  simp only [readBytes, find, alike.resolve_eq, Except.bind_assoc]
  refine Except.bind_congr fun _ checked => Except.bind_congr fun place canonical => ?_
  rw [← alike.resolve_eq] at canonical
  cases stands : first.entry? place with
  | none => rw [alike.missing stands]
  | some entry =>
      cases entry with
      | directory => rw [alike.directory stands]
      | file bytes =>
          have read : first.readBytes path = .ok bytes :=
            readBytes_eq_ok.2 (find_eq_ok.2 ⟨checked, place, canonical, stands⟩)
          rw [same place bytes read canonical]
      | link target => rw [alike.link stands]

end LooksLike

/-- A disk looks the same with other bytes in one of its files. -/
theorem looksLike_put {disk : Disk} {bytes : List UInt8} (nonempty : place ≠ [])
    (stands : disk.entry? place = some (.file bytes)) (others : List UInt8) :
    disk.LooksLike (disk.put place (.file others)) := by
  intro path
  by_cases same : path = place
  · subst same
    rw [stands, entry?_put_self nonempty]
    rfl
  · rw [entry?_put_of_ne same]

end Disk

end StaticSite
