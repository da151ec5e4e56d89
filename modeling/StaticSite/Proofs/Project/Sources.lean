import StaticSite.Proofs.Config
import StaticSite.Proofs.Project.Rebuilding
import StaticSite.Proofs.Template.Containment
import StaticSite.Proofs.Template.Seams
import StaticSite.Proofs.Text.Encoding

/-!
# What a build reads

Directives keep to the files of the project, as far as the paths of these files can be spelled.
Pages do not: the source of a page is read wherever the path of the page leads, and where a link
leads out, that is outside.  But for these files nothing outside the project has a part in what a
build comes to.
-/

namespace StaticSite.Project

variable {disk first second after : Disk} {project : Project} {root place page above : Path}
  {name : Text} {bytes : List UInt8} {report : BuildReport} {config : Config}
  {compiled : List (Path × Text)} {staged : Disk} {trouble : BuildTrouble}

/-! ## Where pages are read -/

/-- The source of a page is the file at `place`.  It is the one that the walk has found, unless a
link stands there or in the place of the templates. -/
structure PageSource (disk : Disk) (project : Project) (root page place : Path)
    (bytes : List UInt8) : Prop where
  leads : disk.resolve (project.templates ++ page) = .ok place
  isFile : disk.entry? place = some (.file bytes)
  unlinked : (∀ target, disk.entry? (root ++ [templatesName]) ≠ some (.link target)) →
    (∀ target, disk.entry? (root ++ templatesName :: page) ≠ some (.link target)) →
    place = root ++ templatesName :: page

/-- Every page that is compiled has a file for its source. -/
theorem exists_pageSource (isTree : disk.IsTree) (atRoot : disk.resolve project.root = .ok root)
    (isSource : IsTemplatePage disk project page) {source : Text}
    (read : disk.readSource (project.templates ++ page) = .ok source) :
    ∃ place bytes, PageSource disk project root page place bytes := by
  obtain ⟨bytes, isFile, _⟩ := Disk.readSource_eq_ok.1 read
  obtain ⟨_, place, leads, stands⟩ := Disk.find_eq_ok.1 (Disk.readBytes_eq_ok.1 isFile)
  refine ⟨place, bytes, leads, stands, fun noLink noLink' => ?_⟩
  obtain ⟨_, directory, entry, leads', stands', _⟩ := isSource
  obtain ⟨_, atRoot'⟩ := Disk.follow_eq_ok.1 (Disk.resolve_eq_ok.1 atRoot).2
  obtain ⟨_, atTemplates⟩ := Disk.follow_eq_ok.1 (Disk.resolve_eq_ok.1 leads').2
  obtain rfl := atRoot'.place_eq_append leads' (Disk.unlinked_singleton noLink)
  rw [List.append_assoc, List.singleton_append] at stands'
  -- Above the page there are only directories, and the page itself is no link.
  have unlinked : disk.Unlinked (root ++ [templatesName]) page := by
    intro front _ isFront target
    rw [List.append_assoc, List.singleton_append]
    by_cases same : front = page
    · exact same ▸ noLink' target
    · rw [isTree.directory_above stands' ((List.prefix_append_right_inj _).2
        (List.cons_prefix_cons.2 ⟨rfl, isFront⟩)) (by simpa using same)]
      nofun
  rw [atTemplates.place_eq_append leads unlinked, List.append_assoc, List.singleton_append]

/-! ## Disks with the same sources -/

/-- The disks agree on everything that a build reads: on the files inside the project, to which the
configuration belongs, on those that directives reach under paths that cannot be spelled, and on
those outside that pages lead to. -/
structure SameSources (first second : Disk) (project : Project) (root : Path)
    (pages : List Path) : Prop where
  onTargets : first.AgreesOnTargets second project.root
  configInside : ∀ place, first.resolve project.configFile = .ok place →
    first.holdsFile place = true → root <+: place
  outside : ∀ page ∈ pages, ∀ place, first.resolve (project.templates ++ page) = .ok place →
    ¬ root <+: place → second.entry? place = first.entry? place

theorem checkReserved_of_looksLike (alike : first.LooksLike second) (templates : Path) :
    checkReserved first templates = checkReserved second templates := by
  simp only [checkReserved, alike.isDirectory_eq, alike.exists?_eq]

theorem isTemplatePage_of_looksLike (alike : first.LooksLike second) :
    IsTemplatePage first project page ↔ IsTemplatePage second project page := by
  have carry : ∀ {first second : Disk}, first.LooksLike second →
      IsTemplatePage first project page → IsTemplatePage second project page := by
    rintro first second alike ⟨named, directory, entry, leads, stands, notDirectory⟩
    have same := alike (directory ++ page)
    rw [stands] at same
    obtain ⟨other, found, shows⟩ := Option.map_eq_some_iff.1 same.symm
    refine ⟨named, directory, other, alike.resolve_eq _ ▸ leads, found, ?_⟩
    rintro rfl
    cases entry with
    | directory => exact notDirectory rfl
    | file | link => cases shows
  exact ⟨carry alike, carry alike.symm⟩

/-- Disks that look alike are walked over to the end alike. -/
theorem walk_of_looksLike (alike : first.LooksLike second) {directory : Path}
    {entries : List (Path × Entry)} (walked : walk first directory = .ok ⟨entries, none⟩) :
    ∃ entries', walk second directory = .ok ⟨entries', none⟩ := by
  rcases walk_eq_ok.1 walked with ⟨place, found, _, leads, rfl, listable⟩ | ⟨kind, found, other, _⟩
  · refine ⟨second.below place, walk_eq_ok.2 (.inl ⟨place, alike.find_directory found, rfl,
      alike.resolve_eq _ ▸ leads, rfl, fun row isRow isDirectory => ?_⟩)⟩
    obtain ⟨path, entry⟩ := row
    dsimp only at isDirectory
    subst isDirectory
    obtain ⟨nonempty, stands⟩ := Disk.mem_below.1 isRow
    have isRow' := Disk.mem_below.2 ⟨nonempty, alike.directory_iff.2 stands⟩
    exact listable (path, .directory) isRow' rfl
  · obtain ⟨kind', found', shows⟩ := alike.find_ok found
    refine ⟨[], walk_eq_ok.2 (.inr ⟨kind', found', ?_, rfl⟩)⟩
    rintro rfl
    cases kind with
    | directory => exact other rfl
    | file | link => cases shows

/-- The walk finds the same pages, in the same order. -/
theorem pages_of_looksLike (isTree : first.IsTree) (alike : first.LooksLike second)
    {entries : List (Path × Entry)} (walked : walk first project.templates = .ok ⟨entries, none⟩) :
    ∃ entries', walk second project.templates = .ok ⟨entries', none⟩ ∧
      pages entries' = pages entries := by
  obtain ⟨entries', walked'⟩ := walk_of_looksLike alike walked
  refine ⟨entries', walked', ?_⟩
  have members : ∀ page, page ∈ pages entries' ↔ page ∈ pages entries := by
    intro page
    rw [mem_pages_of_walk isTree walked, mem_pages_of_walk (alike.isTree isTree) walked',
      isTemplatePage_of_looksLike alike]
  have : Std.Irrefl fun path path' : Path => path < path' := ⟨fun path => Std.Irrefl.irrefl path⟩
  have : Std.Antisymm fun path path' : Path => path < path' :=
    ⟨fun path path' before after => absurd (Trans.trans before after) (Std.Irrefl.irrefl path)⟩
  exact (pairwise_pages walked').eq_of_mem_iff (pairwise_pages walked) members

namespace SameSources

variable {pages : List Path} (same : SameSources first second project root pages)
  (atRoot : first.canonical project.root = .ok root)

include same atRoot

theorem config_eq : project.config first = project.config second := by
  have read : first.readBytes project.configFile = second.readBytes project.configFile := by
    refine same.onTargets.alike.readBytes_eq fun place bytes read leads => ?_
    obtain ⟨_, place', leads', stands⟩ := Disk.find_eq_ok.1 (Disk.readBytes_eq_ok.1 read)
    rw [leads] at leads'
    cases leads'
    have isFile := Disk.holdsFile_eq_true.2 ⟨_, stands⟩
    exact same.onTargets.content root _ _ atRoot (same.configInside _ leads isFile) stands
  rw [config, config, configOfFile, configOfFile, Disk.readText, Disk.readText, read,
    same.onTargets.alike.isFile_eq]

theorem readSource_eq (isPage : page ∈ pages) :
    first.readSource (project.templates ++ page)
      = second.readSource (project.templates ++ page) := by
  rw [Disk.readSource, Disk.readSource]
  refine congrArg _ (same.onTargets.alike.readBytes_eq fun place bytes read leads => ?_)
  obtain ⟨_, place', leads', stands⟩ := Disk.find_eq_ok.1 (Disk.readBytes_eq_ok.1 read)
  rw [leads] at leads'
  cases leads'
  by_cases isInside : root <+: place
  · exact same.onTargets.content root _ _ atRoot isInside stands
  · rw [same.outside page isPage place leads isInside, stands]

theorem compiledSite_eq (isTree : first.IsTree)
    (compiles : compiledSite first project = .ok compiled)
    (listed : compiled.map (·.1) = pages) : compiledSite second project = .ok compiled := by
  have alike := same.onTargets.alike
  obtain ⟨config, configured, passed, compiles, stages⟩ := compiledSite_eq_ok.1 compiles
  obtain ⟨compiler, entries, prepared, walked, _, mapped⟩ := compilePages_eq_ok_iff.1 compiles
  obtain ⟨entries', walked', samePages⟩ := pages_of_looksLike isTree alike walked
  obtain rfl : compiler = { disk := first, root, maxDepth := config.build.maxDepth } := by
    rw [Compiler.forProject, atRoot, Except.mapError_ok, Except.ok_bind] at prepared
    exact (Except.ok.inj prepared).symm
  have prepared' : Compiler.forProject second project.root config.build.maxDepth
      = .ok { disk := second, root, maxDepth := config.build.maxDepth } := by
    rw [Compiler.forProject, ← alike.canonical_eq, atRoot, Except.mapError_ok, Except.ok_bind]
  have sees := same.onTargets.seesSame atRoot config.build.maxDepth
  refine compiledSite_eq_ok.2 ⟨config, same.config_eq atRoot ▸ configured,
    checkReserved_of_looksLike alike _ ▸ passed, ?_, stages⟩
  refine compilePages_eq_ok_iff.2 ⟨_, entries', prepared', walked', fun _ _ => rfl, ?_⟩
  have keys := (Except.mapM_keyed_eq_ok mapped).1
  rw [samePages]
  refine Except.mapM_of_steps mapped fun page isPage row stepped => ?_
  rw [← keys, listed] at isPage
  rw [← stepped, compilePage, compilePage, ← same.readSource_eq atRoot isPage]
  simp only [sees.compileSource]

end SameSources

/-! ## Publishing -/

/-- Pages are published only where nothing stands, or where what stands there can be removed. -/
theorem ready_of_publish (published : publish disk (above ++ [name]) staged = (.ok (), after))
    (found : disk.placeOf (above ++ [name]) = .ok place) :
    disk.entry? place = none ∨
      disk.holdsFile place = false ∧ disk.exists? (above ++ [name]) = true := by
  obtain ⟨bare, removed, moved⟩ := moved_of_publish published
  cases there : disk.exists? (above ++ [name]) with
  | true =>
    refine .inr ⟨?_, rfl⟩
    cases isFile : disk.holdsFile place with
    | false => rfl
    | true =>
      rw [if_pos there, Disk.removeTree_file found isFile] at removed
      cases removed
  | false =>
    rw [there] at removed
    cases removed
    obtain ⟨_, found', _, free | stands⟩ := Disk.moveTreeTo_eq_ok moved
    · rw [found] at found'
      cases found'
      exact .inl free
    · rw [Disk.exists?_of_placeOf found' stands nofun] at there
      cases there

/-- Disks that look alike take the same pages at the same place. -/
theorem publish_of_looksLike (isTree : first.IsTree) (alike : first.LooksLike second)
    (found : (first.drop place).placeOf (above ++ [name]) = .ok place)
    (published : publish first (above ++ [name]) staged = (.ok (), after)) :
    publish second (above ++ [name]) staged
      = (.ok (), (second.drop place).graft place staged) := by
  have nonempty := Disk.ne_nil_of_placeOf_snoc found
  have found' : (second.drop place).placeOf (above ++ [name]) = .ok place := by
    rw [← (alike.drop nonempty).placeOf_eq, found]
  have foundHere := Disk.placeOf_mono (Disk.drop_within nonempty) found
  rcases ready_of_publish published foundHere with free | ⟨notFile, there⟩
  · exact publish_of_placeOf found' (.inl ((alike.isTree isTree).drop_of_free (alike.missing free)))
  · rw [alike.holdsFile_eq] at notFile
    rw [alike.exists?_eq] at there
    exact publish_of_exists found' there notFile

/-! ## Building -/

/-- What a build that succeeds has compiled, and where it has found the project. -/
theorem compiled_of_build (isTree : disk.IsTree)
    (built : build disk project = (.ok report, after)) :
    ∃ root compiled, disk.canonical project.root = .ok root ∧
      compiledSite disk project = .ok compiled ∧ compiled.map (·.1) = report.files ∧
      publish disk project.live (pageTree compiled) = (.ok (), after) ∧
      ∀ page ∈ report.files, IsTemplatePage disk project page ∧
        ∃ source, disk.readSource (project.templates ++ page) = .ok source := by
  obtain ⟨compiled, compiles, files, published⟩ := build_eq_ok.1 built
  obtain ⟨config, _, _, rendered, _⟩ := compiledSite_eq_ok.1 compiles
  obtain ⟨compiler, _, prepared, _⟩ := compilePages_eq_ok_iff.1 rendered
  obtain ⟨root, atRoot, _⟩ := Except.bind_eq_ok.1 prepared
  refine ⟨root, compiled, Except.mapError_eq_ok.1 atRoot, compiles, files.symm, published, ?_⟩
  obtain ⟨isRow, _⟩ := compilePages_eq_ok isTree rendered
  intro page isPage
  rw [files] at isPage
  obtain ⟨⟨page, html⟩, listed, rfl⟩ := List.mem_map.1 isPage
  obtain ⟨isSource, _, source, _, _, read, _⟩ := (isRow page html).1 listed
  exact ⟨isSource, source, read⟩

/-- A build reads its pages from files, those of the project unless a link leads out of it.  Where
these files and the project are the same, the build comes to the same. -/
theorem build_reads_sources (isTree : disk.IsTree)
    (built : build disk project trouble = (.ok report, after)) :
    ∃ root, disk.canonical project.root = .ok root ∧
      (∀ page ∈ report.files, ∃ place bytes, PageSource disk project root page place bytes) ∧
      ∀ other, SameSources disk other project root report.files →
        ∃ after', build other project = (.ok report, after') ∧
          ∀ path, after'.entry? path
            = if root ++ [liveName] <+: path then after.entry? path else other.entry? path := by
  obtain ⟨root, compiled, atRoot, compiles, files, published, sources⟩ :=
    compiled_of_build isTree (build_of_trouble built)
  have leadsToRoot := Disk.resolve_of_canonical atRoot
  refine ⟨root, atRoot, fun page isPage => ?_, fun other same => ?_⟩
  · obtain ⟨isSource, source, read⟩ := sources page isPage
    exact exists_pageSource isTree leadsToRoot isSource read
  · have compiles' := same.compiledSite_eq atRoot isTree compiles files
    obtain ⟨found, isAfter, _⟩ := published_place isTree leadsToRoot published
    have published' := publish_of_looksLike isTree same.onTargets.alike found published
    have notRoot : root ++ [liveName] ≠ [] := by simp
    refine ⟨_, build_eq_ok.2 ⟨compiled, compiles', files.symm, published'⟩, fun path => ?_⟩
    split
    · next within =>
      obtain ⟨rest, rfl⟩ := within
      simp only [isAfter, Disk.entry?_graft notRoot, Disk.entry?_drop notRoot,
        List.prefix_append, if_true]
    · next apart =>
      rw [Disk.entry?_graft_outside apart, Disk.entry?_drop notRoot, if_neg apart]

/-- The document of a site whose pages are not stamped. -/
def plainDocument : List UInt8 :=
  Utf8.encode (Config.write { build := { stamps := ⟨false, false⟩ } })

/-- A project beside two files, with a page that is a link to one of them. -/
def linkedPageSite (document note secret : List UInt8) : Disk :=
  (((((Disk.empty.put ["note".toList] (.file note)).put ["secret".toList] (.file secret)).put
    ["site".toList] .directory).put ["site".toList, configName] (.file document)).put
    ["site".toList, templatesName] .directory).put
    ["site".toList, templatesName, "p.html".toList] (.link "../../secret".toList)

section

variable {document note : List UInt8} {secret : Text}

theorem linkedPageSite_config : Project.config (linkedPageSite plainDocument note bytes)
    ⟨["site".toList]⟩ = .ok { build := { stamps := ⟨false, false⟩ } } := by
  have found : ∀ document, (linkedPageSite document note bytes).find
      (["site".toList] ++ [configName]) = .ok (.file document) := by
    intro document
    cbv
  have isFile : (linkedPageSite plainDocument note bytes).isFile (["site".toList] ++ [configName])
      = true := by
    rw [Disk.isFile, found]
  have read := Disk.readText_eq_ok.2
    ⟨_, Disk.readBytes_eq_ok.2 (found plainDocument), Utf8.decode?_encode _⟩
  rw [Project.config, configFile, if_pos isFile, configOfFile, read, Except.mapError_ok,
    Except.ok_bind, Config.read?_write (by decide)]
  rfl

theorem linkedPageSite_compiles (raw : ∀ token ∈ tokenize secret, token.isDirective = false)
    (configured : Project.config (linkedPageSite document note (Utf8.encode secret))
      ⟨["site".toList]⟩ = .ok { build := { stamps := ⟨false, false⟩ } }) :
    compiledSite (linkedPageSite document note (Utf8.encode secret)) ⟨["site".toList]⟩
      = .ok [(["p.html".toList], secret)] := by
  have notReserved : checkReserved (linkedPageSite document note (Utf8.encode secret))
      ["site".toList, templatesName] = .ok () := by cbv
  have atRoot : (linkedPageSite document note (Utf8.encode secret)).canonical ["site".toList]
      = .ok ["site".toList] := by cbv
  have walked : walk (linkedPageSite document note (Utf8.encode secret))
      ["site".toList, templatesName]
        = .ok ⟨[(["p.html".toList], .link "../../secret".toList)], none⟩ := by cbv
  have chosen : pages [(["p.html".toList], .link "../../secret".toList)]
      = [["p.html".toList]] := by decide
  have stages : Stages ⟨["site".toList]⟩ (fun _ => none) [["p.html".toList]] := by decide
  have isFile : (linkedPageSite document note (Utf8.encode secret)).readBytes
      ["site".toList, templatesName, "p.html".toList] = .ok (Utf8.encode secret) := by cbv
  have read : (linkedPageSite document note (Utf8.encode secret)).readSource
      (["site".toList, templatesName] ++ ["p.html".toList]) = .ok secret := by
    rw [Disk.readSource]
    exact (congrArg _ isFile).trans (congrArg Except.ok (Utf8.decodeLossy_encode secret))
  have prepared : Compiler.forProject (linkedPageSite document note (Utf8.encode secret))
      ["site".toList] defaultMaxDepth
        = .ok ⟨linkedPageSite document note (Utf8.encode secret), ["site".toList],
          defaultMaxDepth⟩ := by
    rw [Compiler.forProject, atRoot]
    rfl
  have inTemplates : templates ⟨["site".toList]⟩ = ["site".toList, templatesName] := rfl
  refine compiledSite_eq_ok.2 ⟨_, configured, notReserved, ?_, stages⟩
  refine compilePages_eq_ok_iff.2 ⟨_, _, prepared, walked, fun _ _ => rfl, ?_⟩
  rw [chosen, List.mapM_cons, inTemplates, compilePage, read, Except.mapError_ok, Except.ok_bind,
    Compiler.compileSource_of_raw raw]
  rfl

/-- What the link leads to is published. -/
theorem linkedPageSite_build (note : List UInt8)
    (raw : ∀ token ∈ tokenize secret, token.isDirective = false) :
    (linkedPageSite plainDocument note (Utf8.encode secret)).IsTree ∧ ∃ after,
      build (linkedPageSite plainDocument note (Utf8.encode secret)) ⟨["site".toList]⟩
        = (.ok { files := [["p.html".toList]] }, after) ∧
      after.entry? ["site".toList, liveName, "p.html".toList]
        = some (.file (Utf8.encode secret)) := by
  have compiles : compiledSite (linkedPageSite plainDocument note (Utf8.encode secret))
      ⟨["site".toList]⟩ = .ok [(["p.html".toList], secret)] :=
    linkedPageSite_compiles raw linkedPageSite_config
  generalize plainDocument = document at *
  have isTree : (linkedPageSite document note (Utf8.encode secret)).IsTree :=
    of_decide_eq_true (by cbv)
  have free : Disk.entry? (linkedPageSite document note (Utf8.encode secret))
      ["site".toList, liveName] = none := by cbv
  have found : (linkedPageSite document note (Utf8.encode secret)).placeOf
      (["site".toList] ++ [liveName]) = .ok ["site".toList, liveName] := by cbv
  have unchanged := isTree.drop_of_free free
  rw [← unchanged] at found
  refine ⟨isTree, _,
    build_eq_ok.2 ⟨_, compiles, rfl, publish_of_placeOf found (.inl unchanged)⟩, ?_⟩
  change Disk.entry? _ (["site".toList, liveName] ++ ["p.html".toList]) = _
  rw [Disk.entry?_graft (by simp)]
  rfl

end

theorem linkedPageSite_resolve {document note secret : List UInt8} :
    (linkedPageSite document note secret).canonical ["site".toList] = .ok ["site".toList] ∧
      (linkedPageSite document note secret).resolve ["site".toList, configName]
        = .ok ["site".toList, configName] ∧
      (linkedPageSite document note secret).resolve
        ["site".toList, templatesName, "p.html".toList] = .ok ["secret".toList] := by
  refine ⟨?_, ?_, ?_⟩
  · cbv
  · cbv
  · cbv

/-- Neither of the files beside the project is in it. -/
theorem linkedPageSite_agreesInside (document note secret : List UInt8) :
    (∀ note', (linkedPageSite document note secret).AgreesInside
        (linkedPageSite document note' secret) ["site".toList]) ∧
      ∀ secret', (linkedPageSite document note secret).AgreesInside
        (linkedPageSite document note secret') ["site".toList] := by
  have hasNote : Disk.entry? (linkedPageSite document note secret) ["note".toList]
      = some (.file note) := rfl
  have hasSecret : Disk.entry? (linkedPageSite document note secret) ["secret".toList]
      = some (.file secret) := rfl
  refine ⟨fun note' => ?_, fun secret' => ?_⟩
  · have changed : (linkedPageSite document note secret).put ["note".toList] (.file note')
        = linkedPageSite document note' secret := rfl
    exact changed ▸ Disk.agreesInside_put hasNote linkedPageSite_resolve.1 (by decide)
  · have changed : (linkedPageSite document note secret).put ["secret".toList] (.file secret')
        = linkedPageSite document note secret' := rfl
    exact changed ▸ Disk.agreesInside_put hasSecret linkedPageSite_resolve.1 (by decide)

theorem linkedPageSite_hasShortPaths {document note secret : List UInt8} :
    (linkedPageSite document note secret).HasShortPaths :=
  of_decide_eq_true (by cbv)

theorem linkedPageSite_sameSources (document note note' secret : List UInt8) :
    SameSources (linkedPageSite document note secret) (linkedPageSite document note' secret)
      ⟨["site".toList]⟩ ["site".toList] [["p.html".toList]] := by
  refine ⟨((linkedPageSite_agreesInside _ _ _).1 _).onTargets linkedPageSite_hasShortPaths,
    fun place leads _ => ?_, fun page isPage place leads _ => ?_⟩
  · cases linkedPageSite_resolve.2.1.symm.trans leads
    decide
  · obtain rfl := List.mem_singleton.1 isPage
    cases linkedPageSite_resolve.2.2.symm.trans leads
    rfl

theorem linkedPageSite_document (document note secret : List UInt8) :
    Disk.entry? (linkedPageSite document note secret) ["site".toList, configName]
      = some (.file document) := rfl

theorem raw_of_digit : ∀ digit ∈ ["1".toList, "2".toList], ∀ token ∈ tokenize digit,
    token.isDirective = false := by
  have one : tokenize "1".toList = [.rawAt 0 "1".toList] := by cbv
  have two : tokenize "2".toList = [.rawAt 0 "2".toList] := by cbv
  simp only [List.forall_mem_cons, one, two]
  decide

/-- The page is published as its source is outside the project. -/
theorem linkedPageSite_publishes_secret :
    (linkedPageSite plainDocument [] (Utf8.encode "1".toList)).AgreesInside
        (linkedPageSite plainDocument [] (Utf8.encode "2".toList)) ["site".toList] ∧
      Disk.entry? (linkedPageSite plainDocument [] (Utf8.encode "1".toList))
        ["site".toList, configName] = some (.file plainDocument) ∧
      ∃ after after',
        build (linkedPageSite plainDocument [] (Utf8.encode "1".toList)) ⟨["site".toList]⟩
          = (.ok { files := [["p.html".toList]] }, after) ∧
        build (linkedPageSite plainDocument [] (Utf8.encode "2".toList)) ⟨["site".toList]⟩
          = (.ok { files := [["p.html".toList]] }, after') ∧
        after.entry? ["site".toList, liveName, "p.html".toList]
          ≠ after'.entry? ["site".toList, liveName, "p.html".toList] := by
  obtain ⟨_, after, built, published⟩ :=
    linkedPageSite_build [] (raw_of_digit "1".toList (by simp))
  obtain ⟨_, after', built', published'⟩ :=
    linkedPageSite_build [] (raw_of_digit "2".toList (by simp))
  refine ⟨(linkedPageSite_agreesInside _ _ _).2 _, linkedPageSite_document _ _ _, after, after',
    built, built', ?_⟩
  rw [published, published']
  decide

/-- What no page leads to has no part in it. -/
theorem linkedPageSite_reads_sources : ∃ after after',
    build (linkedPageSite plainDocument [49] (Utf8.encode "1".toList)) ⟨["site".toList]⟩
      = (.ok { files := [["p.html".toList]] }, after) ∧
    build (linkedPageSite plainDocument [50] (Utf8.encode "1".toList)) ⟨["site".toList]⟩
      = (.ok { files := [["p.html".toList]] }, after') ∧
    after'.entry? ["site".toList, liveName, "p.html".toList]
      = after.entry? ["site".toList, liveName, "p.html".toList] ∧
    after'.entry? ["note".toList] = some (.file [50]) := by
  obtain ⟨isTree, after, built, _⟩ :=
    linkedPageSite_build [49] (raw_of_digit "1".toList (by simp))
  obtain ⟨root, atRoot, _, others⟩ := build_reads_sources isTree built
  cases linkedPageSite_resolve.1.symm.trans atRoot
  obtain ⟨after', built', entries⟩ := others _ (linkedPageSite_sameSources _ _ [50] _)
  exact ⟨after, after', built, built', (entries _).trans (if_pos (by decide)),
    (entries _).trans (if_neg (by decide))⟩

end StaticSite.Project
