import Mathlib
import StaticSite.Proofs.Disk.Interrupted
import StaticSite.Proofs.Project.Pages

/-!
# What a build publishes

Behind a build that succeeds the published pages are those of the templates, each with the HTML that
it compiles to, in the directories above them.  Nothing else is there, and nothing else has changed.
-/

namespace StaticSite.Project

variable {disk tree after : Disk} {project : Project} {options : BuildOptions}
  {report : BuildReport} {compiled : List (Path × Text)} {path page other place above : Path}
  {name html : Text} {entry : Entry} {making : Path → Option Fault} {trouble : BuildTrouble}

/-! ## Staging -/

/-- What stands in a tree that is made for pages. -/
inductive IsStaged (compiled : List (Path × Text)) : Path → Entry → Prop where
  | page {page : Path} {html : Text} (isPage : (page, html) ∈ compiled) :
      IsStaged compiled page (.file (Utf8.encode html))
  | room {room page : Path} {html : Text} (isPage : (page, html) ∈ compiled)
      (within : room <+: page) (different : room ≠ page) (nonempty : room ≠ []) :
      IsStaged compiled room .directory

theorem isStaged_file {bytes : List UInt8} : IsStaged compiled path (.file bytes) ↔
    ∃ html, (path, html) ∈ compiled ∧ bytes = Utf8.encode html := by
  constructor
  · intro staged
    generalize same : Entry.file bytes = entry at staged
    cases staged with
    | page isPage => exact ⟨_, isPage, Entry.file.inj same⟩
    | room => cases same
  · rintro ⟨html, isPage, rfl⟩
    exact .page isPage

theorem isStaged_directory : IsStaged compiled path .directory ↔
    path ≠ [] ∧ ∃ page html, (page, html) ∈ compiled ∧ path <+: page ∧ path ≠ page := by
  constructor
  · rintro (_ | ⟨isPage, within, different, nonempty⟩)
    exact ⟨nonempty, _, _, isPage, within, different⟩
  · rintro ⟨nonempty, page, html, isPage, within, different⟩
    exact .room isPage within different nonempty

theorem not_isStaged_link {target : Text} : ¬ IsStaged compiled path (.link target) := nofun

theorem isStaged_snoc : IsStaged (compiled ++ [(page, html)]) path entry ↔
    IsStaged compiled path entry ∨ path = page ∧ entry = .file (Utf8.encode html) ∨
      (path <+: page ∧ path ≠ page ∧ path ≠ []) ∧ entry = .directory := by
  have isLast : (page, html) ∈ compiled ++ [(page, html)] :=
    List.mem_append_right _ List.mem_cons_self
  constructor
  · rintro (⟨isPage⟩ | ⟨isPage, within, different, nonempty⟩)
    · rcases List.mem_append.1 isPage with isPage | isNew
      · exact .inl (.page isPage)
      · cases List.mem_singleton.1 isNew
        exact .inr (.inl ⟨rfl, rfl⟩)
    · rcases List.mem_append.1 isPage with isPage | isNew
      · exact .inl (.room isPage within different nonempty)
      · cases List.mem_singleton.1 isNew
        exact .inr (.inr ⟨⟨within, different, nonempty⟩, rfl⟩)
  · rintro ((⟨isPage⟩ | ⟨isPage, within, different, nonempty⟩) | ⟨rfl, rfl⟩ |
      ⟨⟨within, different, nonempty⟩, rfl⟩)
    · exact .page (List.mem_append_left _ isPage)
    · exact .room (List.mem_append_left _ isPage) within different nonempty
    · exact .page isLast
    · exact .room isLast within different nonempty

section

variable (apart : ∀ row ∈ compiled, ∀ row' ∈ compiled, row.1 <+: row'.1 → row = row')
  (isPage : (page, html) ∈ compiled)

include apart isPage

theorem isStaged_page : IsStaged compiled page entry ↔ entry = .file (Utf8.encode html) := by
  constructor
  · rintro (⟨isPage'⟩ | ⟨isPage', within, different, _⟩)
    · cases apart _ isPage _ isPage' List.prefix_rfl
      rfl
    · cases apart _ isPage _ isPage' within
      exact absurd rfl different
  · rintro rfl
    exact .page isPage

theorem isStaged_room (within : path <+: page) (different : path ≠ page) (nonempty : path ≠ []) :
    IsStaged compiled path entry ↔ entry = .directory := by
  constructor
  · rintro (⟨isPage'⟩ | _)
    · cases apart _ isPage' _ isPage within
      exact absurd rfl different
    · rfl
  · rintro rfl
    exact .room isPage within different nonempty

end

theorem get?_putPage (nonempty : page ≠ []) :
    (putPage tree (page, html)).entries.get? path
      = if path = page then some (.file (Utf8.encode html))
        else if path <+: page ∧ path ≠ page ∧ path ≠ [] then some .directory
        else tree.entries.get? path := by
  have isRoom : path ∈ page.parent.ancestors.filter (· ≠ []) ↔
      path <+: page ∧ path ≠ page ∧ path ≠ [] := by
    rw [List.mem_filter, Path.mem_ancestors, Path.prefix_parent_iff nonempty, and_assoc,
      decide_eq_true_eq]
  unfold putPage
  rw [Disk.put, Table.get?_insert, Disk.get?_rooms]
  simp only [isRoom]

/-- Pages of which none is above another one are all staged, with nothing else. -/
theorem get?_pageTree (nonempty : ∀ row ∈ compiled, row.1 ≠ [])
    (apart : ∀ row ∈ compiled, ∀ row' ∈ compiled, row.1 <+: row'.1 → row = row') :
    (pageTree compiled).entries.get? path = some entry ↔ IsStaged compiled path entry := by
  induction compiled using List.reverseRecOn with
  | nil =>
    constructor
    · intro found
      cases found
    · rintro (⟨isPage⟩ | ⟨isPage⟩) <;> cases isPage
  | append_singleton compiled last ih =>
    obtain ⟨page, html⟩ := last
    have isLast : (page, html) ∈ compiled ++ [(page, html)] :=
      List.mem_append_right _ List.mem_cons_self
    have earlier : ∀ row ∈ compiled, row ∈ compiled ++ [(page, html)] :=
      fun row isPage => List.mem_append_left _ isPage
    have ih := ih (fun row isPage => nonempty row (earlier row isPage))
      (fun row isPage row' isPage' => apart row (earlier row isPage) row' (earlier row' isPage'))
    have step :
        pageTree (compiled ++ [(page, html)]) = putPage (pageTree compiled) (page, html) := by
      simp only [pageTree, List.foldl_append, List.foldl_cons, List.foldl_nil]
    rw [step, get?_putPage (nonempty _ isLast)]
    -- What the last page puts down is what is staged there, since the others leave it room.
    by_cases same : path = page
    · subst same
      rw [if_pos rfl, Option.some.injEq, isStaged_page apart isLast, eq_comm]
    · rw [if_neg same]
      by_cases isRoom : path <+: page ∧ path ≠ page ∧ path ≠ []
      · rw [if_pos isRoom, Option.some.injEq,
          isStaged_room apart isLast isRoom.1 isRoom.2.1 isRoom.2.2, eq_comm]
      · rw [if_neg isRoom, ih, isStaged_snoc]
        simp only [same, isRoom, false_and, or_false]

/-- The paths that are made aside for pages, in the order in which they are made. -/
def stagedPaths (pages : List Path) : List Path :=
  [] :: [liveName] :: pages.flatMap fun page => [liveName :: Path.parent page, liveName :: page]

/-- The pages can be made aside. -/
def Stages (project : Project) (making : Path → Option Fault) (pages : List Path) : Prop :=
  ∀ path ∈ stagedPaths pages, checkMaking project making path = .ok ()

instance {pages : List Path} : Decidable (Stages project making pages) :=
  inferInstanceAs (Decidable (∀ path ∈ stagedPaths pages, _))

theorem foldlM_stagePage_eq_ok : compiled.foldlM (stagePage project making) tree = .ok after ↔
    (∀ row ∈ compiled, checkMaking project making (liveName :: row.1.parent) = .ok () ∧
      checkMaking project making (liveName :: row.1) = .ok ()) ∧
    after = compiled.foldl putPage tree := by
  induction compiled generalizing tree with
  | nil => simp [pure, Except.pure, eq_comm]
  | cons row rest ih =>
    rw [List.foldlM_cons, List.foldl_cons, List.forall_mem_cons, Except.bind_eq_ok]
    simp only [stagePage, Except.check_bind_eq_ok, Except.mapError_eq_ok, ih]
    constructor
    · rintro ⟨_, ⟨room, file, made⟩, others, same⟩
      cases made
      exact ⟨⟨⟨room, file⟩, others⟩, same⟩
    · rintro ⟨⟨⟨room, file⟩, others⟩, same⟩
      exact ⟨_, ⟨room, file, rfl⟩, others, same⟩

/-- Staging comes to the tree of the pages, if all of it can be made. -/
theorem stage_eq_ok : stage project making compiled = .ok tree ↔
    project.Stages making (compiled.map (·.1)) ∧ tree = pageTree compiled := by
  simp only [stage, Except.check_bind_eq_ok, Except.mapError_eq_ok, foldlM_stagePage_eq_ok,
    Stages, stagedPaths, List.forall_mem_cons, List.forall_mem_flatMap, List.forall_mem_map,
    List.not_mem_nil, false_implies, implies_true, and_true, and_assoc, pageTree]

theorem Stages.of_trouble {pages : List Path} (stages : project.Stages making pages) :
    project.Stages (fun _ => none) pages :=
  fun path isMade => (Except.check_bind_eq_ok.1 (stages path isMade)).2

/-! ## Swapping -/

/-- Where no obstacle is met, it makes no difference. -/
theorem publish_of_trouble {live : Path} {staged : Disk} {obstacle : Option Disk.Obstacle}
    (published : publish disk live staged obstacle = (.ok (), after)) :
    publish disk live staged = (.ok (), after) := by
  by_cases there : disk.exists? live = true
  · unfold publish at published ⊢
    rw [if_pos there] at published ⊢
    generalize removing : disk.removeTree live .plain obstacle = removal at published
    obtain ⟨result, bare⟩ := removal
    cases result with
    | error fault => cases published
    | ok =>
      rw [Disk.removeTree_of_ok removing]
      exact published
  · unfold publish at published ⊢
    rw [if_neg there] at published ⊢
    exact published

theorem moved_of_publish {live : Path} {staged : Disk}
    (published : publish disk live staged = (.ok (), after)) :
    ∃ bare, (if disk.exists? live then disk.removeTree live .plain else (.ok (), disk))
        = (.ok (), bare) ∧ bare.moveTreeTo live staged = .ok after := by
  unfold publish at published
  generalize (if disk.exists? live then disk.removeTree live .plain else (.ok (), disk)) = removal
    at published ⊢
  obtain ⟨result, bare⟩ := removal
  cases result with
  | error fault => cases published
  | ok =>
    refine ⟨bare, rfl, ?_⟩
    dsimp only at published
    split at published
    · cases published
    · next made moved =>
      cases published
      exact moved

/-- On a tree, publishing puts the staged pages in the place of what was there. -/
theorem publish_eq_ok {staged : Disk} (isTree : disk.IsTree)
    (published : publish disk (above ++ [name]) staged = (.ok (), after)) :
    ∃ place, (disk.drop place).placeOf (above ++ [name]) = .ok place ∧ place ≠ [] ∧
      after = (disk.drop place).graft place staged := by
  obtain ⟨bare, removed, moved⟩ := moved_of_publish published
  obtain ⟨place, found, rfl, standing⟩ := Disk.moveTreeTo_eq_ok moved
  refine ⟨place, ?_⟩
  -- What stood at the place is gone before the pages are moved, if there was anything.
  suffices same : bare = disk.drop place by
    rw [← same]
    exact ⟨found, Disk.ne_nil_of_placeOf_snoc found, rfl⟩
  by_cases there : disk.exists? (above ++ [name]) = true
  · rw [if_pos there] at removed
    cases before : disk.placeOf (above ++ [name]) with
    | error fault =>
      rw [Disk.removeTree_of_error before] at removed
      cases removed
    | ok other =>
      obtain ⟨entry, stands⟩ := Disk.stands_of_exists? there before
      cases isFile : disk.holdsFile other with
      | true =>
        rw [Disk.removeTree_file before isFile] at removed
        cases removed
      | false =>
        rcases Disk.removeTree_plain before stands isFile with gone | ⟨fault, lost, cleared⟩
        · rw [gone] at removed
          cases removed
          have nonempty := Disk.ne_nil_of_placeOf_snoc before
          obtain rfl := Disk.place_eq_of_within (Disk.drop_within nonempty) found before
          rfl
        · -- The path is cut off, so that nothing could be moved there.
          rw [removed] at cleared
          have same : bare = disk.clear other := cleared
          rw [same, lost] at found
          cases found
  · rw [if_neg there] at removed
    cases removed
    rcases standing with free | stands
    · exact (isTree.drop_of_free free).symm
    · -- An empty directory would have been removed as well.
      exact absurd (Disk.exists?_of_placeOf found stands nofun) there

theorem entry?_published (notRoot : place ≠ []) (nonempty : ∀ row ∈ compiled, row.1 ≠ [])
    (apart : ∀ row ∈ compiled, ∀ row' ∈ compiled, row.1 <+: row'.1 → row = row') :
    Disk.entry? ((disk.drop place).graft place (pageTree compiled)) (place ++ path) = some entry ↔
      IsStaged compiled path entry ∨ path = [] ∧ entry = .directory := by
  rw [Disk.entry?_graft notRoot, Disk.entry?_drop notRoot, if_pos (List.prefix_append _ _),
    Option.or_eq_some_iff, get?_pageTree nonempty apart]
  by_cases root : path = []
  · -- No page is staged at the root of the tree, so that its directory is kept.
    have free : (pageTree compiled).entries.get? path = none := by
      rw [Option.eq_none_iff_forall_ne_some]
      intro held found
      cases (get?_pageTree nonempty apart).1 found with
      | page isPage => exact nonempty _ isPage root
      | room _ _ _ notRoot => exact notRoot root
    simp [root, ← free, eq_comm]
  · simp [root]

/-! ## Building -/

/-- At `place` the disk `after` has the pages that `disk` has sources of, and nothing else.
Elsewhere it is like `disk`. -/
structure Publishes (disk : Disk) (project : Project) (options : BuildOptions)
    (report : BuildReport) (place : Path) (after : Disk) : Prop where
  atPlace : after.placeOf project.live = .ok place
  isDirectory : after.entry? place = some .directory
  rendered : ∀ page, IsTemplatePage disk project page →
    ∃ html, Renders disk project options page html
  files : ∀ path bytes, after.entry? (place ++ path) = some (.file bytes) ↔
    IsTemplatePage disk project path ∧
      ∃ html, Renders disk project options path html ∧ bytes = Utf8.encode html
  directories : ∀ path, path ≠ [] → (after.entry? (place ++ path) = some .directory ↔
    ∃ page, IsTemplatePage disk project page ∧ path <+: page ∧ path ≠ page)
  noLinks : ∀ path target, after.entry? (place ++ path) ≠ some (.link target)
  listed : ∀ page, page ∈ report.files ↔ IsTemplatePage disk project page
  increasing : report.files.Pairwise (· < ·)
  elsewhere : ∀ other, ¬ place <+: other → after.entry? other = disk.entry? other

theorem publishes_of_graft (isTree : disk.IsTree) (notRoot : place ≠ [])
    (compiles : compilePages disk project options = .ok compiled)
    (found : (disk.drop place).placeOf project.live = .ok place) :
    Publishes disk project options { files := compiled.map (·.1) } place
      ((disk.drop place).graft place (pageTree compiled)) := by
  obtain ⟨isRow, isKey, increasing⟩ := compilePages_eq_ok isTree compiles
  have nonempty : ∀ row ∈ compiled, row.1 ≠ [] := by
    rintro ⟨page, html⟩ listed
    exact ((isRow page html).1 listed).1.ne_nil
  -- No page is above another one, and each is compiled once.
  have apart : ∀ row ∈ compiled, ∀ row' ∈ compiled, row.1 <+: row'.1 → row = row' := by
    rintro ⟨page, html⟩ listed ⟨page', html'⟩ listed' within
    obtain ⟨isSource, rendered⟩ := (isRow page html).1 listed
    obtain ⟨isSource', rendered'⟩ := (isRow page' html').1 listed'
    obtain rfl := isSource.eq_of_prefix isTree isSource' within
    obtain rfl := rendered.unique rendered'
    rfl
  have hasRow : ∀ page, IsTemplatePage disk project page → ∃ html, (page, html) ∈ compiled := by
    intro page isSource
    obtain ⟨⟨_, html⟩, listed, rfl⟩ := List.mem_map.1 ((isKey page).2 isSource)
    exact ⟨html, listed⟩
  -- All that is asked about the pages is asked about what is below their place.
  have below : ∀ path entry,
      Disk.entry? ((disk.drop place).graft place (pageTree compiled)) (place ++ path) = some entry ↔
        IsStaged compiled path entry ∨ path = [] ∧ entry = .directory :=
    fun path entry => entry?_published notRoot nonempty apart
  constructor
  · exact Disk.placeOf_mono (Disk.drop_within_graft notRoot) found
  · have atPlace := (below [] .directory).2 (.inr ⟨rfl, rfl⟩)
    rwa [List.append_nil] at atPlace
  · intro page isSource
    obtain ⟨html, listed⟩ := hasRow page isSource
    exact ⟨html, ((isRow page html).1 listed).2⟩
  · intro path bytes
    rw [below]
    rw [isStaged_file]
    constructor
    · rintro (⟨html, listed, same⟩ | ⟨_, impossible⟩)
      · obtain ⟨isSource, rendered⟩ := (isRow path html).1 listed
        exact ⟨isSource, html, rendered, same⟩
      · cases impossible
    · rintro ⟨isSource, html, rendered, same⟩
      exact .inl ⟨html, (isRow path html).2 ⟨isSource, rendered⟩, same⟩
  · intro path proper
    rw [below, isStaged_directory]
    constructor
    · rintro (⟨_, page, html, listed, within, different⟩ | ⟨root, _⟩)
      · exact ⟨page, ((isRow page html).1 listed).1, within, different⟩
      · exact absurd root proper
    · rintro ⟨page, isSource, within, different⟩
      obtain ⟨html, listed⟩ := hasRow page isSource
      exact .inl ⟨proper, page, html, listed, within, different⟩
  · intro path target stands
    rcases (below path (.link target)).1 stands with staged | ⟨_, impossible⟩
    · exact not_isStaged_link staged
    · cases impossible
  · exact isKey
  · exact increasing
  · intro other outside
    rw [Disk.entry?_graft_outside outside, Disk.entry?_drop notRoot, if_neg outside]

theorem prepare_eq_ok {staged : Disk} :
    prepare disk project options trouble = .ok (compiled, staged) ↔
      checkReserved disk project.templates = .ok () ∧
        compilePages disk project options trouble = .ok compiled ∧
        project.Stages trouble.making (compiled.map (·.1)) ∧ staged = pageTree compiled := by
  rw [prepare, Except.check_bind_eq_ok, Except.bind_eq_ok]
  refine and_congr_right fun _ => ?_
  constructor
  · rintro ⟨compiled, compiles, staging⟩
    obtain ⟨staged, stages, same⟩ := Except.bind_eq_ok.1 staging
    cases same
    exact ⟨compiles, stage_eq_ok.1 stages⟩
  · rintro ⟨compiles, stages⟩
    exact ⟨compiled, compiles, by rw [stage_eq_ok.2 stages, Except.ok_bind]⟩

/-- A build succeeds where all pages compile and can be made, and can be put in their place. -/
theorem buildWith_eq_ok : buildWith disk project options trouble = (.ok report, after) ↔
    ∃ compiled, checkReserved disk project.templates = .ok () ∧
      compilePages disk project options trouble = .ok compiled ∧
      project.Stages trouble.making (compiled.map (·.1)) ∧
      report.files = compiled.map (·.1) ∧
      publish disk project.live (pageTree compiled) trouble.removal = (.ok (), after) := by
  constructor
  · intro built
    unfold buildWith at built
    split at built
    · cases built
    · next compiled staged prepared =>
      obtain ⟨notReserved, compiles, stages, rfl⟩ := prepare_eq_ok.1 prepared
      split at built
      · cases built
      · next swapped published =>
        cases built
        exact ⟨compiled, notReserved, compiles, stages, rfl, published⟩
  · rintro ⟨compiled, notReserved, compiles, stages, files, published⟩
    obtain ⟨_⟩ := report
    dsimp only at files
    subst files
    rw [buildWith, prepare_eq_ok.2 ⟨notReserved, compiles, stages, rfl⟩]
    simp only [published]

/-- What succeeds although the system may refuse some of it comes to the same where it refuses
nothing. -/
theorem buildWith_of_trouble
    (built : buildWith disk project options trouble = (.ok report, after)) :
    buildWith disk project options = (.ok report, after) := by
  obtain ⟨compiled, notReserved, compiles, stages, files, published⟩ := buildWith_eq_ok.1 built
  exact buildWith_eq_ok.2 ⟨compiled, notReserved, compilePages_of_trouble compiles,
    stages.of_trouble, files, publish_of_trouble published⟩

/-- Behind a build that succeeds the published pages are those of the templates, and nothing else
has changed. -/
theorem buildWith_publishes (isTree : disk.IsTree)
    (built : buildWith disk project options trouble = (.ok report, after)) :
    ∃ place, Publishes disk project options report place after := by
  obtain ⟨compiled, _, compiles, _, files, published⟩ :=
    buildWith_eq_ok.1 (buildWith_of_trouble built)
  obtain ⟨place, found, notRoot, same⟩ := publish_eq_ok isTree published
  obtain ⟨_⟩ := report
  dsimp only at files
  subst files
  rw [same]
  exact ⟨place, publishes_of_graft isTree notRoot compiles found⟩

/-- A site with a page in a directory, beside what is no page, and with an old published page. -/
def blogSite : Disk :=
  (((((Disk.empty.put [liveName] .directory).put [liveName, "old.html".toList] (.file [49])).put
    [templatesName] .directory).put [templatesName, "blog".toList] .directory).put
    [templatesName, "blog".toList, "p.html".toList] (.file [104, 105])).put
    [templatesName, "notes.txt".toList] (.file [50])

theorem blogSite_publishes : blogSite.IsTree ∧ ∃ after place,
    buildWith blogSite { root := [] } { maxDepth := 1, stamps := ⟨false, false⟩ }
      = (.ok { files := [["blog".toList, "p.html".toList]] }, after) ∧
    Publishes blogSite { root := [] } { maxDepth := 1, stamps := ⟨false, false⟩ }
      { files := [["blog".toList, "p.html".toList]] } place after := by
  have isTree : blogSite.IsTree := by decide
  have prepared : Compiler.forProject blogSite [] 1
      = .ok { disk := blogSite, root := [], maxDepth := 1 } := by cbv
  have walked : walk blogSite [templatesName] = .ok ⟨[(["blog".toList], .directory),
      (["blog".toList, "p.html".toList], .file [104, 105]),
      (["notes.txt".toList], .file [50])], none⟩ := by cbv
  have chosen : Project.pages [(["blog".toList], .directory),
      (["blog".toList, "p.html".toList], .file [104, 105]),
      (["notes.txt".toList], .file [50])] = [["blog".toList, "p.html".toList]] := by decide
  have compiles : compilePages blogSite { root := [] } { maxDepth := 1, stamps := ⟨false, false⟩ }
      = .ok [(["blog".toList, "p.html".toList], "hi".toList)] := by
    refine compilePages_eq_ok_iff.2 ⟨_, _, prepared, walked, fun _ _ => rfl, ?_⟩
    rw [chosen]
    cbv
  have notReserved : checkReserved blogSite [templatesName] = .ok () := by cbv
  have swapped : (publish blogSite [liveName]
      (pageTree [(["blog".toList, "p.html".toList], "hi".toList)])).1 = .ok () := by cbv
  generalize published : publish blogSite [liveName]
    (pageTree [(["blog".toList, "p.html".toList], "hi".toList)]) = outcome at swapped
  obtain ⟨result, after⟩ := outcome
  obtain rfl : result = .ok () := swapped
  have built : buildWith blogSite { root := [] } { maxDepth := 1, stamps := ⟨false, false⟩ }
      = (.ok { files := [["blog".toList, "p.html".toList]] }, after) :=
    buildWith_eq_ok.2 ⟨_, notReserved, compiles, by decide, rfl, published⟩
  obtain ⟨place, publishes⟩ := buildWith_publishes isTree built
  exact ⟨isTree, after, place, built, publishes⟩

end StaticSite.Project
