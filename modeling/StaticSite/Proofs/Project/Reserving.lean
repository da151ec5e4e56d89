import Mathlib
import StaticSite.Proofs.Disk.Fronts
import StaticSite.Proofs.Project.Publication

/-!
# Names that are kept for the admin interface

Before a build compiles anything it looks whether something stands under a reserved name.  That look
follows links and the walk over the pages does not, but a page is read from the same path.  So
whatever has a reserved name is refused, or is no page, or is a page that cannot be read.
-/

namespace StaticSite.Project

variable {disk after : Disk} {project : Project} {options : BuildOptions} {report : BuildReport}
  {templates page : Path} {error : SiteError} {html : Text}

/-- A page that would take the place of the admin interface. -/
def IsReserved (page : Path) : Prop :=
  (∃ name ∈ reservedDirectories, page.head? = some name) ∨ ∃ name ∈ reservedFiles, page = [name]

/-- The check looks for directories under some names and for anything else under others. -/
theorem checkReserved_eq_ok : checkReserved disk templates = .ok () ↔
    (∀ name ∈ reservedDirectories, disk.isDirectory (templates ++ [name]) = false) ∧
    ∀ name ∈ reservedFiles, disk.exists? (templates ++ [name]) = true →
      disk.isDirectory (templates ++ [name]) = true := by
  unfold checkReserved
  split
  · next name found =>
    have taken := List.find?_some found
    simp only [reduceCtorEq, false_iff, not_and]
    intro free
    rw [free name (List.mem_of_find?_eq_some found)] at taken
    cases taken
  · next noDirectory =>
    have free : ∀ name ∈ reservedDirectories, disk.isDirectory (templates ++ [name]) = false := by
      simpa using noDirectory
    split
    · next name found =>
      have taken := List.find?_some found
      rw [Bool.and_eq_true, Bool.not_eq_true'] at taken
      simp only [reduceCtorEq, false_iff, not_and]
      intro _ noFile
      have isDirectory := noFile name (List.mem_of_find?_eq_some found) taken.1
      rw [taken.2] at isDirectory
      cases isDirectory
    · next noFile =>
      simp only [true_iff]
      refine ⟨free, fun name isName there => ?_⟩
      have passed := List.find?_eq_none.1 noFile name isName
      simpa [there] using passed

/-- The check names what it has found. -/
theorem checkReserved_eq_error (refused : checkReserved disk templates = .error error) :
    ∃ name ∈ reservedDirectories ++ reservedFiles, error = .reservedPath (templates ++ [name]) := by
  unfold checkReserved at refused
  split at refused
  · next name found =>
    cases refused
    exact ⟨name, List.mem_append_left _ (List.mem_of_find?_eq_some found), rfl⟩
  · split at refused
    · next name found =>
      cases refused
      exact ⟨name, List.mem_append_right _ (List.mem_of_find?_eq_some found), rfl⟩
    · cases refused

/-- A page that can be read has no reserved name, if the check has found none. -/
theorem not_isReserved_of_read {source : Text} (passed : checkReserved disk templates = .ok ())
    (named : isPage page = true) (read : disk.readSource (templates ++ page) = .ok source) :
    ¬ IsReserved page := by
  obtain ⟨noDirectory, noFile⟩ := checkReserved_eq_ok.1 passed
  obtain ⟨bytes, readBytes, _⟩ := Disk.readSource_eq_ok.1 read
  have found := Disk.readBytes_eq_ok.1 readBytes
  rintro (⟨name, isName, first⟩ | ⟨name, isName, rfl⟩)
  · obtain ⟨rest, rfl⟩ := List.head?_eq_some_iff.1 first
    by_cases last : rest = []
    · have noPage : ∀ name ∈ reservedDirectories, isPage [name] = false := by decide
      rw [last, noPage name isName] at named
      cases named
    · -- The page is read from below the directory, so that the check has seen it.
      rw [List.append_cons] at found
      have isDirectory := Disk.isDirectory_of_find_append found last
      rw [noDirectory name isName] at isDirectory
      cases isDirectory
  · have there : disk.exists? (templates ++ [name]) = true :=
      Disk.exists?_eq_true.2 ⟨_, found⟩
    have isDirectory := noFile name isName there
    rw [Disk.isDirectory, found] at isDirectory
    cases isDirectory

/-- No page that a build publishes has a reserved name. -/
theorem not_isReserved_of_renders (passed : checkReserved disk project.templates = .ok ())
    (isSource : IsTemplatePage disk project page)
    (renders : Renders disk project options page html) : ¬ IsReserved page := by
  obtain ⟨_, source, _, _, read, _⟩ := renders
  exact not_isReserved_of_read passed (isPage_iff.2 isSource.1) read

/-- Nothing stands at a reserved name among published pages, unless it is a directory in the place
of a reserved file. -/
theorem Publishes.reserved {place : Path} {name : Text} {entry : Entry}
    (publishes : Publishes disk project options report place after)
    (passed : checkReserved disk project.templates = .ok ())
    (isName : name ∈ reservedDirectories ++ reservedFiles)
    (stands : after.entry? (place ++ [name]) = some entry) :
    name ∈ reservedFiles ∧ entry = .directory := by
  have notReserved : ∀ page, IsTemplatePage disk project page → ¬ IsReserved page := by
    intro page isSource
    obtain ⟨html, renders⟩ := publishes.rendered page isSource
    exact not_isReserved_of_renders passed isSource renders
  cases entry with
  | link target => exact absurd stands (publishes.noLinks [name] target)
  | file bytes =>
    have isSource := ((publishes.files [name] bytes).1 stands).1
    rcases List.mem_append.1 isName with isDirectory | isFile
    · exact absurd (.inl ⟨name, isDirectory, rfl⟩) (notReserved _ isSource)
    · exact absurd (.inr ⟨name, isFile, rfl⟩) (notReserved _ isSource)
  | directory =>
    rcases List.mem_append.1 isName with isDirectory | isFile
    · obtain ⟨page, isSource, within, _⟩ :=
        (publishes.directories [name] (List.cons_ne_nil _ _)).1 stands
      obtain ⟨rest, rfl⟩ := within
      exact absurd (.inl ⟨name, isDirectory, rfl⟩) (notReserved _ isSource)
    · exact ⟨isFile, rfl⟩

/-- Behind a build that succeeds nothing has the place of the admin interface, neither on the disk
nor in the report.  A build that the check refuses changes nothing. -/
theorem reserved_never_published (isTree : disk.IsTree) (project : Project)
    (options : BuildOptions) (trouble : BuildTrouble) :
    (∀ report after, buildWith disk project options trouble = (.ok report, after) →
      (∃ place, after.placeOf project.live = .ok place ∧
        after.entry? place = some .directory ∧
        (∀ name ∈ reservedDirectories, after.entry? (place ++ [name]) = none) ∧
        ∀ name ∈ reservedFiles, ∀ entry, after.entry? (place ++ [name]) = some entry →
          entry = .directory) ∧
      ∀ page ∈ report.files, ¬ IsReserved page) ∧
    ∀ error, checkReserved disk project.templates = .error error →
      buildWith disk project options trouble = (.error error, disk) := by
  constructor
  · intro report after built
    obtain ⟨place, publishes⟩ := buildWith_publishes isTree built
    obtain ⟨_, passed, _⟩ := buildWith_eq_ok.1 built
    refine ⟨⟨place, publishes.atPlace, publishes.isDirectory, ?_, ?_⟩, ?_⟩
    · intro name isName
      rw [Option.eq_none_iff_forall_ne_some]
      intro entry stands
      have isFile := (publishes.reserved passed (List.mem_append_left _ isName) stands).1
      have apart : ∀ name ∈ reservedDirectories, name ∉ reservedFiles := by decide
      exact apart name isName isFile
    · intro name isName entry stands
      exact (publishes.reserved passed (List.mem_append_right _ isName) stands).2
    · intro page isListed
      have isSource := (publishes.listed page).1 isListed
      obtain ⟨html, renders⟩ := publishes.rendered page isSource
      exact not_isReserved_of_renders passed isSource renders
  · intro error refused
    rw [buildWith, prepare, refused, Except.error_bind]

/-- A site whose templates are behind a link.  Under reserved names there are a link that leads
nowhere, a file without the ending of a page and a directory with a page in it. -/
def crowdedSite : Disk :=
  (((((Disk.empty.put [templatesName] (.link "pages".toList)).put ["pages".toList] .directory).put
    ["pages".toList, "admin".toList] (.link "nowhere".toList)).put
    ["pages".toList, "static".toList] (.file [49])).put
    ["pages".toList, "login.html".toList] .directory).put
    ["pages".toList, "login.html".toList, "a.html".toList] (.file [104, 105])

/-- The site with a directory behind the link, which makes its name a reserved one. -/
def guardedSite : Disk :=
  crowdedSite.put ["pages".toList, "nowhere".toList] .directory

theorem crowdedSite_reserved_never_published : (∃ after place,
    buildWith crowdedSite { root := [] } { maxDepth := 1, stamps := ⟨false, false⟩ }
      = (.ok { files := [["login.html".toList, "a.html".toList]] }, after) ∧
    after.placeOf [liveName] = .ok place ∧
    (∀ name ∈ reservedDirectories, after.entry? (place ++ [name]) = none) ∧
    ∀ name ∈ reservedFiles, ∀ entry, after.entry? (place ++ [name]) = some entry →
      entry = .directory) ∧
    buildWith guardedSite { root := [] } {}
      = (.error (.reservedPath [templatesName, "admin".toList]), guardedSite) := by
  have isTree : crowdedSite.IsTree := by decide
  have prepared : Compiler.forProject crowdedSite [] 1
      = .ok { disk := crowdedSite, root := [], maxDepth := 1 } := by cbv
  have walked : walk crowdedSite [templatesName] = .ok ⟨[(["admin".toList], .link "nowhere".toList),
      (["login.html".toList], .directory),
      (["login.html".toList, "a.html".toList], .file [104, 105]),
      (["static".toList], .file [49])], none⟩ := by cbv
  have chosen : Project.pages [(["admin".toList], .link "nowhere".toList),
      (["login.html".toList], .directory),
      (["login.html".toList, "a.html".toList], .file [104, 105]),
      (["static".toList], .file [49])] = [["login.html".toList, "a.html".toList]] := by decide
  have compiles : compilePages crowdedSite { root := [] }
      { maxDepth := 1, stamps := ⟨false, false⟩ }
      = .ok [(["login.html".toList, "a.html".toList], "hi".toList)] := by
    refine compilePages_eq_ok_iff.2 ⟨_, _, prepared, walked, fun _ _ => rfl, ?_⟩
    rw [chosen]
    cbv
  have passed : checkReserved crowdedSite [templatesName] = .ok () := by cbv
  have swapped : (publish crowdedSite [liveName]
      (pageTree [(["login.html".toList, "a.html".toList], "hi".toList)])).1 = .ok () := by cbv
  generalize published : publish crowdedSite [liveName]
    (pageTree [(["login.html".toList, "a.html".toList], "hi".toList)]) = outcome at swapped
  obtain ⟨result, after⟩ := outcome
  obtain rfl : result = .ok () := swapped
  have built : buildWith crowdedSite { root := [] } { maxDepth := 1, stamps := ⟨false, false⟩ }
      = (.ok { files := [["login.html".toList, "a.html".toList]] }, after) :=
    buildWith_eq_ok.2 ⟨_, passed, compiles, by decide, rfl, published⟩
  obtain ⟨⟨place, atPlace, _, directories, files⟩, _⟩ :=
    (reserved_never_published isTree _ _ _).1 _ _ built
  have isTree' : guardedSite.IsTree := by decide
  have refused : checkReserved guardedSite [templatesName]
      = .error (.reservedPath [templatesName, "admin".toList]) := by cbv
  have unchanged := (reserved_never_published isTree' { root := [] } {} {}).2 _ refused
  exact ⟨⟨after, place, built, atPlace, directories, files⟩, unchanged⟩

end StaticSite.Project
