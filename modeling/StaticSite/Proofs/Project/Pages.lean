import StaticSite.Project.Build
import StaticSite.Proofs.Disk.Trees

/-!
# The pages of a project

Which entries below the templates are pages, and what each of them compiles to.  Pages are compiled
in path order, and none of them is above another one.
-/

namespace StaticSite.Project

variable {disk : Disk} {project : Project} {options : BuildOptions}
  {compiled : List (Path × Text)} {page other directory : Path} {html : Text}
  {listing : Path → Option Fault} {entries listed : List (Path × Entry)} {trouble : BuildTrouble}

/-- Below the templates, with no link followed, an entry that is no directory has the name of a
page. -/
def IsTemplatePage (disk : Disk) (project : Project) (page : Path) : Prop :=
  (∃ room stem, page = room ++ [stem ++ ".html".toList] ∧ stem ≠ []) ∧
  ∃ directory entry, disk.resolve project.templates = .ok directory ∧
    disk.entry? (directory ++ page) = some entry ∧ entry ≠ .directory

/-- The source of the page compiles, under the page's own name, and is stamped. -/
def Renders (disk : Disk) (project : Project) (options : BuildOptions) (page : Path)
    (html : Text) : Prop :=
  ∃ compiler source compiled,
    Compiler.forProject disk project.root options.maxDepth = .ok compiler ∧
    disk.readSource (project.templates ++ page) = .ok source ∧
    compiler.compileSource (pageName page) source = .ok compiled ∧
    html = options.stamps.apply (pageName page) compiled

/-! ## Walking -/

theorem isPage_iff : isPage page = true ↔
    ∃ room stem, page = room ++ [stem ++ ".html".toList] ∧ stem ≠ [] := by
  rcases List.eq_nil_or_concat page with rfl | ⟨above, name, rfl⟩
  · simp [isPage, Path.fileName?]
  · simp only [isPage, Path.fileName?, List.concat_eq_append, List.getLast?_concat,
      Bool.and_eq_true, List.isSuffixOf_iff_suffix, decide_eq_true_eq]
    constructor
    · rintro ⟨⟨stem, rfl⟩, long⟩
      refine ⟨above, stem, rfl, ?_⟩
      rintro rfl
      exact absurd long (by decide)
    · rintro ⟨room, stem, same, nonempty⟩
      have sameName : name = stem ++ ".html".toList :=
        List.singleton_inj.1 (List.append_inj' same rfl).2
      have positive := List.length_pos_iff.2 nonempty
      rw [sameName, List.length_append]
      exact ⟨List.suffix_append _ _, by simpa using positive⟩

theorem IsTemplatePage.ne_nil (isSource : IsTemplatePage disk project page) : page ≠ [] := by
  obtain ⟨⟨room, stem, rfl, _⟩, _⟩ := isSource
  exact List.append_ne_nil_of_right_ne_nil _ (List.cons_ne_nil _ _)

theorem mem_pages {entries : List (Path × Entry)} : page ∈ pages entries ↔
    isPage page = true ∧ ∃ entry, (page, entry) ∈ entries ∧ entry ≠ .directory := by
  rw [pages, List.mem_filterMap]
  constructor
  · rintro ⟨⟨other, entry⟩, isEntry, chosen⟩
    dsimp only at chosen
    split at chosen
    · next kind =>
      cases chosen
      exact ⟨kind.2, entry, isEntry, kind.1⟩
    · cases chosen
  · rintro ⟨named, entry, isEntry, kind⟩
    exact ⟨(page, entry), isEntry, if_pos ⟨kind, named⟩⟩

theorem walkOn_eq : walkOn directory listing entries = ⟨listed, none⟩ ↔ listed = entries ∧
    ∀ row ∈ entries, row.2 = .directory → checkListing directory listing row.1 = .ok () := by
  induction entries generalizing listed with
  | nil => simp [walkOn, eq_comm]
  | cons row rest ih =>
    obtain ⟨path, entry⟩ := row
    rw [walkOn, List.forall_mem_cons]
    split
    · next fault refused =>
      have failed : ¬ (entry = .directory → checkListing directory listing path = .ok ()) := by
        intro passes
        split at refused
        · next isDirectory =>
          rw [passes isDirectory] at refused
          cases refused
        · cases refused
      simp [failed]
    · next passed =>
      have passes : entry = .directory → checkListing directory listing path = .ok () :=
        fun isDirectory => by rwa [if_pos isDirectory] at passed
      generalize walkOn directory listing rest = walked at ih ⊢
      obtain ⟨others, stop⟩ := walked
      simp only [Walk.mk.injEq, and_iff_right passes] at ih ⊢
      constructor
      · rintro ⟨rfl, rfl⟩
        obtain ⟨rfl, listable⟩ := ih.1 ⟨rfl, rfl⟩
        exact ⟨rfl, listable⟩
      · rintro ⟨rfl, listable⟩
        obtain ⟨rfl, rfl⟩ := ih.2 ⟨rfl, listable⟩
        exact ⟨rfl, rfl⟩

/-- A walk that is stopped has come upon a front part of the entries. -/
theorem walkOn_front (directory : Path) (listing : Path → Option Fault)
    (entries : List (Path × Entry)) : (walkOn directory listing entries).entries <+: entries := by
  induction entries with
  | nil => exact List.prefix_rfl
  | cons row rest ih =>
    obtain ⟨path, entry⟩ := row
    rw [walkOn]
    split
    · exact List.prefix_iff_eq_append.2 rfl
    · exact (List.prefix_cons_inj _).2 ih

/-- What a walk comes upon stands below the directory. -/
theorem mem_below_of_walk {walked : Walk} {row : Path × Entry}
    (walking : walk disk directory listing = .ok walked) (isRow : row ∈ walked.entries) :
    ∃ place, disk.resolve directory = .ok place ∧ row ∈ disk.below place := by
  obtain ⟨kind, _, listed⟩ := Except.bind_eq_ok.1 walking
  cases kind with
  | directory =>
    obtain ⟨_, listed⟩ := Except.check_bind_eq_ok.1 listed
    obtain ⟨place, leads, listed⟩ := Except.bind_eq_ok.1 listed
    cases listed
    exact ⟨place, leads, (walkOn_front ..).subset isRow⟩
  | file | link =>
    cases listed
    exact absurd isRow List.not_mem_nil

/-- A walk that comes to its end lists everything below a directory. -/
theorem walk_eq_ok : walk disk directory listing = .ok ⟨entries, none⟩ ↔
    (∃ place, disk.find directory = .ok .directory ∧ listing [] = none ∧
      disk.resolve directory = .ok place ∧ entries = disk.below place ∧
      ∀ row ∈ entries, row.2 = .directory → checkListing directory listing row.1 = .ok ()) ∨
    ∃ kind, disk.find directory = .ok kind ∧ kind ≠ .directory ∧ entries = [] := by
  rw [walk, Except.bind_eq_ok]
  constructor
  · rintro ⟨kind, found, listed⟩
    cases kind with
    | directory =>
      obtain ⟨listable, listed⟩ := Except.check_bind_eq_ok.1 listed
      obtain ⟨place, leads, listed⟩ := Except.bind_eq_ok.1 listed
      obtain ⟨rfl, others⟩ := walkOn_eq.1 (Except.ok.inj listed)
      exact .inl ⟨place, found, Fault.check_eq_ok.1 listable, leads, rfl, others⟩
    | file | link =>
      cases listed
      exact .inr ⟨_, found, nofun, rfl⟩
  · rintro (⟨place, found, listable, leads, rfl, others⟩ | ⟨kind, found, notDirectory, rfl⟩)
    · refine ⟨_, found, ?_⟩
      simp only [listable, Fault.check, leads, Except.ok_bind, walkOn_eq.2 ⟨rfl, others⟩]
    · refine ⟨kind, found, ?_⟩
      cases kind with
      | directory => exact absurd rfl notDirectory
      | file | link => rfl

/-- What the system lets be listed is listed without its refusals as well. -/
theorem walk_of_trouble (walked : walk disk directory listing = .ok ⟨entries, none⟩) :
    walk disk directory = .ok ⟨entries, none⟩ := by
  rw [walk_eq_ok] at walked ⊢
  rcases walked with ⟨place, found, _, leads, listed, others⟩ | other
  · refine .inl ⟨place, found, rfl, leads, listed, fun row isRow isDirectory => ?_⟩
    exact (Except.check_bind_eq_ok.1 (others row isRow isDirectory)).2
  · exact .inr other

theorem mem_pages_of_walk (isTree : disk.IsTree)
    (walked : walk disk project.templates listing = .ok ⟨entries, none⟩) :
    page ∈ pages entries ↔ IsTemplatePage disk project page := by
  rw [mem_pages, isPage_iff, IsTemplatePage]
  refine and_congr_right fun ⟨room, stem, named, _⟩ => ?_
  have nonempty : page ≠ [] := by
    rw [named]
    exact List.append_ne_nil_of_right_ne_nil _ (List.cons_ne_nil _ _)
  rcases walk_eq_ok.1 walked with ⟨directory, _, _, leads, rfl, _⟩ | ⟨kind, found, other, rfl⟩
  · constructor
    · rintro ⟨entry, isEntry, notDirectory⟩
      exact ⟨directory, entry, leads, (Disk.mem_below.1 isEntry).2, notDirectory⟩
    · rintro ⟨_, entry, same, stands', notDirectory⟩
      rw [leads] at same
      cases same
      exact ⟨entry, Disk.mem_below.2 ⟨nonempty, stands'⟩, notDirectory⟩
  · -- In a tree there is nothing below what is no directory.
    obtain ⟨_, directory, leads, stands⟩ := Disk.find_eq_ok.1 found
    constructor
    · rintro ⟨_, isEntry, _⟩
      cases isEntry
    · rintro ⟨_, entry, same, stands', _⟩
      rw [leads] at same
      cases same
      have inside := isTree.directory_above stands' (List.prefix_append _ _)
        (by simpa using nonempty)
      rw [stands] at inside
      exact absurd (Option.some.inj inside) other

theorem pairwise_pages (walked : walk disk directory listing = .ok ⟨entries, none⟩) :
    (pages entries).Pairwise (· < ·) := by
  have increasing : entries.Pairwise fun first second => first.1 < second.1 := by
    rcases walk_eq_ok.1 walked with ⟨place, _, _, _, rfl, _⟩ | ⟨_, _, _, rfl⟩
    · exact Disk.pairwise_below disk place
    · exact .nil
  refine increasing.filterMap _ ?_
  rintro ⟨path, entry⟩ ⟨path', entry'⟩ before page isFirst page' isSecond
  dsimp only at isFirst isSecond
  split at isFirst
  · split at isSecond
    · cases isFirst
      cases isSecond
      exact before
    · cases isSecond
  · cases isFirst

theorem IsTemplatePage.eq_of_prefix (isTree : disk.IsTree)
    (isSource : IsTemplatePage disk project page) (isSource' : IsTemplatePage disk project other)
    (within : page <+: other) : page = other := by
  obtain ⟨_, directory, entry, leads, stands, notDirectory⟩ := isSource
  obtain ⟨_, directory', entry', leads', stands', _⟩ := isSource'
  rw [leads] at leads'
  cases leads'
  -- In a tree only directories are above something.
  by_contra different
  have isDirectory := isTree.directory_above stands' ((List.prefix_append_right_inj _).2 within)
    (by simpa using different)
  rw [stands] at isDirectory
  exact notDirectory (Option.some.inj isDirectory)

/-! ## Compiling -/

theorem Renders.unique {html' : Text} (renders : Renders disk project options page html)
    (renders' : Renders disk project options page html') : html = html' := by
  obtain ⟨compiler, source, compiled, prepared, read, compiles, rfl⟩ := renders
  obtain ⟨compiler', source', compiled', prepared', read', compiles', rfl⟩ := renders'
  rw [prepared] at prepared'
  cases prepared'
  rw [read] at read'
  cases read'
  rw [compiles] at compiles'
  cases compiles'
  rfl

/-- Pages compile where the walk comes to its end and all of them can be read. -/
theorem compilePages_eq_ok_iff : compilePages disk project options trouble = .ok compiled ↔
    ∃ compiler entries, Compiler.forProject disk project.root options.maxDepth = .ok compiler ∧
      walk disk project.templates trouble.listing = .ok ⟨entries, none⟩ ∧
      (∀ page ∈ pages entries, trouble.reading page = none) ∧
      ((pages entries).mapM fun page => do
        .ok (page, ← compilePage compiler options.stamps project.templates page))
          = .ok compiled := by
  simp only [compilePages, Except.bind_eq_ok, Except.mapError_eq_ok, Except.mapM_check_eq_ok,
    Fault.check_eq_ok]
  constructor
  · rintro ⟨compiler, prepared, ⟨entries, stop⟩, walked, rows, ⟨readable, mapped⟩, ends⟩
    cases stop with
    | some stopped => cases ends
    | none =>
      cases ends
      exact ⟨compiler, entries, prepared, walked, readable, mapped⟩
  · rintro ⟨compiler, entries, prepared, walked, readable, mapped⟩
    exact ⟨compiler, prepared, _, walked, compiled, ⟨readable, mapped⟩, rfl⟩

theorem compilePages_of_trouble
    (compiles : compilePages disk project options trouble = .ok compiled) :
    compilePages disk project options = .ok compiled := by
  obtain ⟨compiler, entries, prepared, walked, _, mapped⟩ := compilePages_eq_ok_iff.1 compiles
  exact compilePages_eq_ok_iff.2
    ⟨compiler, entries, prepared, walk_of_trouble walked, fun _ _ => rfl, mapped⟩

theorem renders_of_compilePages (compiles : compilePages disk project options = .ok compiled) :
    (∃ entries, walk disk project.templates = .ok ⟨entries, none⟩ ∧
      compiled.map (·.1) = pages entries) ∧
    ∀ page html, (page, html) ∈ compiled → Renders disk project options page html := by
  obtain ⟨compiler, entries, prepared, walked, _, mapped⟩ := compilePages_eq_ok_iff.1 compiles
  obtain ⟨keys, steps⟩ := Except.mapM_keyed_eq_ok mapped
  refine ⟨⟨entries, walked, keys⟩, ?_⟩
  intro page html isRow
  obtain ⟨source, read, rest⟩ := Except.bind_eq_ok.1 (steps _ isRow)
  obtain ⟨plain, resolved, stamped⟩ := Except.bind_eq_ok.1 rest
  rw [Except.mapError_eq_ok] at read resolved
  have sameDisk : compiler.disk = disk := by
    obtain ⟨root, _, made⟩ := Except.bind_eq_ok.1 prepared
    cases made
    rfl
  rw [sameDisk] at read
  exact ⟨compiler, source, plain, prepared, read, resolved, (Except.ok.inj stamped).symm⟩

/-- What is compiled are the pages of the templates, in order. -/
theorem compilePages_eq_ok (isTree : disk.IsTree)
    (compiles : compilePages disk project options = .ok compiled) :
    (∀ page html, (page, html) ∈ compiled ↔
      IsTemplatePage disk project page ∧ Renders disk project options page html) ∧
    (∀ page, page ∈ compiled.map (·.1) ↔ IsTemplatePage disk project page) ∧
    (compiled.map (·.1)).Pairwise (· < ·) := by
  obtain ⟨⟨entries, walked, keys⟩, renders⟩ := renders_of_compilePages compiles
  have isKey : ∀ page, page ∈ compiled.map (·.1) ↔ IsTemplatePage disk project page := by
    intro page
    rw [keys, mem_pages_of_walk isTree walked]
  refine ⟨fun page html => ⟨fun isRow => ?_, ?_⟩, isKey, keys ▸ pairwise_pages walked⟩
  · exact ⟨(isKey page).1 (List.mem_map_of_mem isRow), renders page html isRow⟩
  · -- The page is listed with some HTML, and it renders to no other.
    rintro ⟨isSource, rendered⟩
    obtain ⟨⟨_, html'⟩, isRow, rfl⟩ := List.mem_map.1 ((isKey page).2 isSource)
    obtain rfl := rendered.unique (renders _ _ isRow)
    exact isRow

end StaticSite.Project
