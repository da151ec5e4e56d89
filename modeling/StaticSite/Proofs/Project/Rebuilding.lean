import Mathlib
import StaticSite.Proofs.Disk.Rooms
import StaticSite.Proofs.LogicalName
import StaticSite.Proofs.Project.Publication
import StaticSite.Proofs.Text.Cutting
import StaticSite.Proofs.Template.Transfer

/-!
# Building again

What a build reads is outside the published pages, as long as no directive goes there.  So a second
build publishes what the first one did, whatever was published before.
-/

namespace StaticSite

/-! ## First names -/

/-- The text in front of the first slash. -/
def PathText.firstName (path : Text) : Text :=
  path.takeWhile (· ≠ '/')

theorem PathText.firstName_join {name : Text} {rest : List Text} (noSlash : '/' ∉ name) :
    firstName (join (name :: rest)) = name := by
  have run : ∀ c ∈ name, decide (c ≠ '/') = true := by
    intro c isIn
    rw [decide_eq_true_eq]
    rintro rfl
    exact noSlash isIn
  cases rest with
  | nil =>
    have whole : join [name] = name ++ [] := by simp [join, List.intercalate]
    rw [whole]
    refine Text.takeWhile_run run ?_
    rintro c isFirst
    cases isFirst
  | cons next rest =>
    have split : join (name :: next :: rest) = name ++ '/' :: join (next :: rest) := by
      simp [join, List.intercalate]
    rw [split]
    refine Text.takeWhile_run run ?_
    rintro c isFirst
    cases isFirst
    decide

/-! ## Compiling -/

section

variable {disk other : Disk} {front root : Path} {rooms names : List Text} {maxDepth : Nat}

theorem Disk.AgreesOutside.isCanonical (agrees : disk.AgreesOutside other root rooms)
    (canonical : disk.IsCanonical root) : other.IsCanonical root := by
  intro above name isFront
  rw [← agrees _ (Disk.outside_of_front isFront),
    ← agrees _ (Disk.outside_of_front ((List.prefix_append _ _).trans isFront))]
  exact canonical above name isFront

theorem Disk.SharesRoot.isCanonical (shares : disk.SharesRoot other front root rooms) :
    disk.IsCanonical root := by
  obtain ⟨left, reached, _⟩ := shares.reached
  exact reached.isCanonical Disk.isCanonical_nil

/-- From the canonical root itself the disks look the same as well. -/
theorem Disk.SharesRoot.atRoot (shares : disk.SharesRoot other front root rooms) :
    disk.SharesRoot other root root rooms := by
  have canonical := shares.isCanonical
  refine ⟨shares.agrees, shares.linkFree,
    ⟨Disk.maxLinks, canonical.leads, (shares.agrees.isCanonical canonical).leads⟩, ?_⟩
  simpa using shares.agrees.canonical_eq shares.linkFree canonical Disk.unlisted_nil

/-- Directives that do not name a room lead to the same files. -/
theorem Disk.SharesRoot.findsIn (shares : disk.SharesRoot other front root rooms) :
    Compiler.FindsIn { disk, root, maxDepth } { disk := other, root, maxDepth }
      fun file => PathText.firstName file ∉ rooms := by
  intro relative target source located read allowed
  have located' := (Compiler.locate_eq_ok _).1 located
  obtain ⟨bytes, isFile, _⟩ := Disk.readSource_eq_ok.1 read
  obtain ⟨names, place, normal, logical, leads, _, _, whereabouts⟩ :=
    Disk.read_target located' isFile
  have unlisted : Disk.Unlisted rooms names := by
    intro name isFirst
    obtain ⟨rest, rfl⟩ := List.head?_eq_some_iff.1 isFirst
    have isName := PathText.isName_of_normalize? normal name List.mem_cons_self
    rwa [logical, PathText.firstName_join isName.noSlash] at allowed
  -- Spelled or not, without links the target is where its names say.
  have written : target.place = root ++ names := by
    rcases whereabouts with ⟨same, _⟩ | ⟨same, _⟩
    · rw [same, shares.atRoot.eq_append leads]
    · exact same
  refine ⟨(Compiler.locate_eq_ok _).2 ?_, ?_⟩
  · have spelled := shares.agrees.canonical_eq shares.linkFree shares.isCanonical unlisted
    simp only [Disk.contain?, normal, spelled, Option.bind_eq_bind, Option.bind_some]
      at located' ⊢
    exact located'
  · rw [written] at read ⊢
    rw [← shares.atRoot.readSource_eq unlisted]
    exact read

end

namespace Project

variable {disk other after : Disk} {project : Project} {root place above : Path} {name : Text}
  {rooms names : List Text} {report : BuildReport} {compiled : List (Path × Text)} {staged : Disk}
  {trouble : BuildTrouble}

/-- What a build publishes if nothing is refused: all pages, compiled with the configured options.
-/
def compiledSite (disk : Disk) (project : Project) : Except SiteError (List (Path × Text)) := do
  let config ← project.config disk
  let (compiled, _) ← prepare disk project config.build {}
  .ok compiled

theorem compiledSite_eq_ok : compiledSite disk project = .ok compiled ↔
    ∃ config, project.config disk = .ok config ∧ checkReserved disk project.templates = .ok () ∧
      compilePages disk project config.build = .ok compiled ∧
      project.Stages (fun _ => none) (compiled.map (·.1)) := by
  simp only [compiledSite, Except.bind_eq_ok, Prod.exists, Except.ok.injEq]
  constructor
  · rintro ⟨config, configured, _, staged, prepared, rfl⟩
    obtain ⟨passed, compiles, stages, _⟩ := prepare_eq_ok.1 prepared
    exact ⟨config, configured, passed, compiles, stages⟩
  · rintro ⟨config, configured, passed, compiles, stages⟩
    exact ⟨config, configured, compiled, _, prepare_eq_ok.2 ⟨passed, compiles, stages, rfl⟩, rfl⟩

theorem build_eq_ok : build disk project = (.ok report, after) ↔
    ∃ compiled, compiledSite disk project = .ok compiled ∧ report.files = compiled.map (·.1) ∧
      publish disk project.live (pageTree compiled) = (.ok (), after) := by
  constructor
  · intro built
    unfold build at built
    split at built
    · cases built
    · next config configured =>
      obtain ⟨compiled, passed, compiles, stages, files, published⟩ := buildWith_eq_ok.1 built
      exact ⟨compiled, compiledSite_eq_ok.2 ⟨config, configured, passed, compiles, stages⟩, files,
        published⟩
  · rintro ⟨compiled, compiles, files, published⟩
    obtain ⟨config, configured, passed, compiles, stages⟩ := compiledSite_eq_ok.1 compiles
    rw [build, configured]
    exact buildWith_eq_ok.2 ⟨compiled, passed, compiles, stages, files, published⟩

/-- A build that fails before it publishes changes nothing. -/
theorem build_of_not_compiled {error : SiteError}
    (failed : compiledSite disk project = .error error) :
    build disk project = (.error error, disk) := by
  unfold compiledSite at failed
  unfold build
  cases configured : project.config disk with
  | error fault =>
    rw [configured] at failed
    cases failed
    rfl
  | ok config =>
    rw [configured, Except.ok_bind] at failed
    dsimp only
    unfold buildWith
    cases prepared : prepare disk project config.build {} with
    | error fault =>
      rw [prepared] at failed
      cases failed
      rfl
    | ok ready =>
      rw [prepared] at failed
      cases failed

theorem build_of_trouble (built : build disk project trouble = (.ok report, after)) :
    build disk project = (.ok report, after) := by
  unfold build at built ⊢
  split at built
  · cases built
  · exact buildWith_of_trouble built

/-- No include or layout that is resolved while the pages compile has a logical name in a room. -/
def ReadsOutside (disk : Disk) (project : Project) (rooms : List Text) : Prop :=
  ∀ config compiler page source, project.config disk = .ok config →
    Compiler.forProject disk project.root config.build.maxDepth = .ok compiler →
    IsTemplatePage disk project page →
    disk.readSource (project.templates ++ page) = .ok source →
    (compiler.recordSource (pageName page) source).StaysIn fun file =>
      PathText.firstName file ∉ rooms

section

variable (shares : disk.SharesRoot other project.root root rooms)

include shares

theorem config_eq (outside : configName ∉ rooms) : project.config disk = project.config other := by
  have unlisted := Disk.unlisted_cons outside []
  rw [config, config, configOfFile, configOfFile, configFile, shares.isFile_eq unlisted,
    shares.readText_eq unlisted]

theorem forProject_eq_ok {maxDepth : Nat} {compiler : Compiler}
    (prepared : Compiler.forProject disk project.root maxDepth = .ok compiler) :
    compiler = { disk, root, maxDepth } ∧
      Compiler.forProject other project.root maxDepth = .ok { disk := other, root, maxDepth } := by
  obtain ⟨place, spelled, made⟩ := Except.bind_eq_ok.1 prepared
  rw [Except.mapError_eq_ok] at spelled
  cases made
  have leads := Disk.resolve_of_canonical spelled
  rw [← List.append_nil project.root] at leads
  have atRoot := shares.eq_append leads
  rw [List.append_nil] at atRoot
  subst atRoot
  rw [shares.spelled] at spelled
  exact ⟨rfl, by rw [Compiler.forProject, spelled]; rfl⟩

variable (outside : templatesName ∉ rooms)

include outside

theorem checkReserved_eq :
    checkReserved disk project.templates = checkReserved other project.templates := by
  have isDirectory : ∀ name, disk.isDirectory (project.templates ++ [name])
      = other.isDirectory (project.templates ++ [name]) := by
    intro name
    simp only [templates, List.append_assoc, List.cons_append, List.nil_append,
      shares.isDirectory_eq (Disk.unlisted_cons outside [name])]
  have exists? : ∀ name, disk.exists? (project.templates ++ [name])
      = other.exists? (project.templates ++ [name]) := by
    intro name
    simp only [templates, List.append_assoc, List.cons_append, List.nil_append,
      shares.exists?_eq (Disk.unlisted_cons outside [name])]
  simp only [checkReserved, isDirectory, exists?]

theorem walk_eq : walk disk project.templates = walk other project.templates := by
  have unlisted := Disk.unlisted_cons outside []
  rw [walk, walk, templates, ← shares.find_eq unlisted, ← shares.resolve_eq unlisted]
  refine Except.bind_congr fun kind _ => ?_
  cases kind with
  | directory =>
    refine Except.bind_congr fun _ _ => Except.bind_congr fun directory leads => ?_
    rw [shares.eq_append leads, shares.agrees.below_eq unlisted (List.cons_ne_nil _ _)]
  | file | link => rfl

/-- Where no directive leads into a room, the pages compile to the same. -/
theorem compiledSite_of_sharesRoot (isTree : disk.IsTree) (outsideConfig : configName ∉ rooms)
    (reads : ReadsOutside disk project rooms)
    (compiles : compiledSite disk project = .ok compiled) :
    compiledSite other project = .ok compiled := by
  obtain ⟨config, configured, passed, compiles, stages⟩ := compiledSite_eq_ok.1 compiles
  obtain ⟨compiler, entries, prepared, walked, _, mapped⟩ := compilePages_eq_ok_iff.1 compiles
  obtain ⟨rfl, prepared'⟩ := forProject_eq_ok shares prepared
  refine compiledSite_eq_ok.2 ⟨config, config_eq shares outsideConfig ▸ configured,
    checkReserved_eq shares outside ▸ passed, ?_, stages⟩
  refine compilePages_eq_ok_iff.2
    ⟨_, entries, prepared', walk_eq shares outside ▸ walked, fun _ _ => rfl, ?_⟩
  -- The source of a page is in no room, and neither is any file that compiling it goes to.
  refine Except.mapM_of_steps mapped fun page isPage row stepped => ?_
  obtain ⟨html, rendered, same⟩ := Except.bind_eq_ok.1 stepped
  obtain ⟨source, read, rendered⟩ := Except.bind_eq_ok.1 rendered
  obtain ⟨plain, resolved, stamped⟩ := Except.bind_eq_ok.1 rendered
  rw [Except.mapError_eq_ok] at read resolved
  have isSource := (mem_pages_of_walk isTree walked).1 isPage
  have stays := reads _ _ page source configured prepared isSource read
  have read' : other.readSource (project.templates ++ page) = .ok source := by
    rw [templates, List.append_assoc, List.singleton_append] at read ⊢
    rw [← shares.readSource_eq (Disk.unlisted_cons outside page)]
    exact read
  have resolved' := Compiler.compileSource_of_staysIn shares.findsIn rfl resolved stays
  rw [compilePage, read', Except.mapError_ok, Except.ok_bind, resolved', Except.mapError_ok,
    Except.ok_bind, stamped, Except.ok_bind]
  exact same

end

/-! ## Publishing -/

/-- Where a path still leads without what stands in its place, that goes, unless it is a file, and
the new pages take its place. -/
theorem publish_of_exists (found : (disk.drop place).placeOf (above ++ [name]) = .ok place)
    (there : disk.exists? (above ++ [name]) = true) (notFile : disk.holdsFile place = false) :
    publish disk (above ++ [name]) staged = (.ok (), (disk.drop place).graft place staged) := by
  have nonempty := Disk.ne_nil_of_placeOf_snoc found
  have foundHere := Disk.placeOf_mono (Disk.drop_within nonempty) found
  have moved : (disk.drop place).moveTreeTo (above ++ [name]) staged
      = .ok ((disk.drop place).graft place staged) :=
    Disk.moveTreeTo_of_free found (Disk.free_drop disk nonempty)
  obtain ⟨_, stands⟩ := Disk.stands_of_exists? there foundHere
  rw [publish, if_pos there]
  rcases Disk.removeTree_plain foundHere stands notFile with removed | ⟨fault, lost, _⟩
  · simp only [removed, moved]
  · rw [Disk.placeOf_mono (Disk.drop_within_clear nonempty) found] at lost
    cases lost

theorem publish_of_placeOf (found : (disk.drop place).placeOf (above ++ [name]) = .ok place)
    (ready : disk.drop place = disk ∨ disk.entry? place = some .directory) :
    publish disk (above ++ [name]) staged = (.ok (), (disk.drop place).graft place staged) := by
  have nonempty := Disk.ne_nil_of_placeOf_snoc found
  rcases ready with same | stands
  · rw [same] at found ⊢
    have free : disk.entry? place = none := same ▸ Disk.free_drop disk nonempty
    have missing : disk.exists? (above ++ [name]) ≠ true := by
      intro there
      obtain ⟨entry, stands⟩ := Disk.stands_of_exists? there found
      rw [free] at stands
      cases stands
    rw [publish, if_neg missing]
    simp only [Disk.moveTreeTo_of_free found free]
  · have foundHere := Disk.placeOf_mono (Disk.drop_within nonempty) found
    exact publish_of_exists found
      (Disk.exists?_of_placeOf foundHere stands fun _ same => by cases same)
      (by simp [Disk.holdsFile, stands])

/-- Disks that hold the same outside of a place hold the same when a tree was put there. -/
theorem entry?_graft_drop {first second : Disk} (notRoot : place ≠ [])
    (agrees : ∀ path, ¬ place <+: path → first.entry? path = second.entry? path) (path : Path) :
    Disk.entry? ((first.drop place).graft place staged) path
      = Disk.entry? ((second.drop place).graft place staged) path := by
  by_cases within : place <+: path
  · obtain ⟨rest, rfl⟩ := within
    simp only [Disk.entry?_graft notRoot, Disk.entry?_drop notRoot, List.prefix_append, if_true]
  · rw [Disk.entry?_graft_outside within, Disk.entry?_graft_outside within,
      Disk.entry?_drop notRoot, Disk.entry?_drop notRoot, if_neg within, if_neg within,
      agrees path within]

/-! ## Building again -/

/-- A build that succeeds leads to the canonical root even without the published pages. -/
theorem published_place (isTree : disk.IsTree) (atRoot : disk.resolve project.root = .ok root)
    (published : publish disk project.live staged = (.ok (), after)) :
    (disk.drop (root ++ [liveName])).placeOf project.live = .ok (root ++ [liveName]) ∧
      after = (disk.drop (root ++ [liveName])).graft (root ++ [liveName]) staged ∧
      ∃ left, (disk.drop (root ++ [liveName])).Leads Disk.maxLinks (project.root.map .enter) [] left
        root := by
  obtain ⟨place, found, notRoot, same⟩ := publish_eq_ok isTree published
  obtain ⟨_, parent, followed, _, _, placed⟩ := Disk.placeOf_snoc_eq_ok.1 found
  obtain ⟨left, leads⟩ := Disk.follow_eq_ok.1 followed
  obtain ⟨_, leadsToRoot⟩ := Disk.follow_eq_ok.1 (Disk.resolve_eq_ok.1 atRoot).2
  obtain rfl := (leads.mono (Disk.drop_within notRoot)).place_eq leadsToRoot
  subst placed
  exact ⟨found, same, left, leads⟩

/-- Where a build succeeds, it succeeds in the same way on every disk that differs in nothing but
the published pages. -/
theorem build_of_agreesOutside (isTree : disk.IsTree)
    (atRoot : disk.resolve project.root = .ok root) (linkFree : disk.LinkFree root)
    (reads : ReadsOutside disk project [liveName])
    (built : build disk project = (.ok report, after))
    (agrees : disk.AgreesOutside other root [liveName])
    (ready : other.drop (root ++ [liveName]) = other ∨
      other.entry? (root ++ [liveName]) = some .directory) :
    ∃ after', build other project = (.ok report, after') ∧
      ∀ path, after'.entry? path = after.entry? path := by
  obtain ⟨compiled, compiles, files, published⟩ := build_eq_ok.1 built
  obtain ⟨found, rfl, left, reached⟩ := published_place isTree atRoot published
  have notRoot : root ++ [liveName] ≠ [] := by simp
  have outside : ∀ path, ¬ root ++ [liveName] <+: path → disk.entry? path = other.entry? path := by
    intro path notBelow
    refine agrees path fun room isRoom => ?_
    rwa [List.mem_singleton.1 isRoom]
  have bare : (disk.drop (root ++ [liveName])).Within (other.drop (root ++ [liveName])) := by
    intro path entry stands
    rw [Disk.entry?_drop notRoot] at stands ⊢
    split at stands
    · cases stands
    · next notBelow => rwa [if_neg notBelow, ← outside path notBelow]
  have bareOther := bare.trans (Disk.drop_within notRoot)
  have shares : disk.SharesRoot other project.root root [liveName] := by
    refine ⟨agrees, linkFree, ⟨left, reached.mono (Disk.drop_within notRoot),
      reached.mono bareOther⟩, ?_⟩
    -- The root is spelled as it is without the published pages.
    rw [Disk.canonical_eq_of_within reached (Disk.drop_within notRoot),
      Disk.canonical_eq_of_within reached bareOther]
  have compiles' := compiledSite_of_sharesRoot shares (by decide) isTree (by decide) reads compiles
  have published' : publish other project.live (pageTree compiled) = (.ok (), _) :=
    publish_of_placeOf (Disk.placeOf_mono bare found) ready
  exact ⟨_, build_eq_ok.2 ⟨compiled, compiles', files, published'⟩,
    fun path => (entry?_graft_drop notRoot outside path).symm⟩

/-- In a project without links, whose directives do not lead into the published pages, a second
build changes nothing, and what was published before makes no difference. -/
theorem build_again (isTree : disk.IsTree) (atRoot : disk.resolve project.root = .ok root)
    (linkFree : disk.LinkFree root) (reads : ReadsOutside disk project [liveName])
    (built : build disk project trouble = (.ok report, after)) :
    (∃ again, build after project = (.ok report, again) ∧
      ∀ path, again.entry? path = after.entry? path) ∧
    ∀ other : Disk, other.IsTree → disk.AgreesOutside other root [liveName] →
      (other.entry? (root ++ [liveName]) = none ∨
        other.entry? (root ++ [liveName]) = some .directory) →
      ∃ after', build other project = (.ok report, after') ∧
        ∀ path, after'.entry? path = after.entry? path := by
  replace built := build_of_trouble built
  constructor
  · obtain ⟨compiled, compiles, files, published⟩ := build_eq_ok.1 built
    obtain ⟨found, same, _⟩ := published_place isTree atRoot published
    have notRoot : root ++ [liveName] ≠ [] := by simp
    refine build_of_agreesOutside isTree atRoot linkFree reads built ?_ (.inr ?_)
    · intro path outside
      have notBelow := outside liveName List.mem_cons_self
      rw [same, Disk.entry?_graft_outside notBelow, Disk.entry?_drop notRoot, if_neg notBelow]
    · -- The new pages stand in a directory, which is where they were put.
      obtain ⟨config, configured, _⟩ := compiledSite_eq_ok.1 compiles
      have built' : buildWith disk project config.build = (.ok report, after) := by
        simpa [build, configured] using built
      obtain ⟨place, publishes⟩ := buildWith_publishes isTree built'
      have atPlace := publishes.atPlace
      rw [same, Disk.placeOf_mono (Disk.drop_within_graft notRoot) found] at atPlace
      cases atPlace
      exact publishes.isDirectory
  · intro other isTree' agrees standing
    refine build_of_agreesOutside isTree atRoot linkFree reads built agrees ?_
    exact standing.imp_left isTree'.drop_of_free

/-- A source that includes a part. -/
def partSource : Text := "\x7b\x7b include \"h\" \x7d\x7d".toList

/-- A site with a page that includes a part, and with an old published page. -/
def partSite : Disk :=
  ((((Disk.empty.put ["h".toList] (.file [120])).put [liveName] .directory).put
    [liveName, "old.html".toList] (.file [49])).put [templatesName] .directory).put
    [templatesName, "p.html".toList] (.file (Utf8.encode partSource))

/-- The compiler of the site. -/
def partCompiler : Compiler where
  disk := partSite
  root := []
  maxDepth := defaultMaxDepth

theorem partSite_config : Project.config partSite ⟨[]⟩ = .ok {} := by
  have missing : partSite.isFile (Project.configFile ⟨[]⟩) = false := by cbv
  rw [Project.config, missing]
  rfl

theorem partSite_forProject :
    Compiler.forProject partSite [] defaultMaxDepth = .ok partCompiler := by
  have spelled : partSite.canonical [] = .ok [] := by cbv
  rw [Compiler.forProject, spelled]
  rfl

theorem partSite_walk : walk partSite [templatesName]
    = .ok ⟨[(["p.html".toList], .file (Utf8.encode partSource))], none⟩ := by cbv

theorem partSite_readSource :
    partSite.readSource [templatesName, "p.html".toList] = .ok partSource := by cbv

/-- The include in the page. -/
def partToken : Token where
  kind := .inclusion
  content := "\"h\"".toList
  start := 0
  stop := 17

/-- The part that it leads to. -/
def partTarget : Target where
  place := ["h".toList]
  logical := "h".toList

theorem tokenize_partSource : tokenize partSource = [partToken] := by cbv

theorem tokenize_part : tokenize "x".toList = [.rawAt 0 "x".toList] := by cbv

theorem partSite_locate :
    partCompiler.locate (Arguments.ofText partToken.content).main = .ok partTarget := by cbv

theorem partSite_readPart : partSite.readSource partTarget.place = .ok "x".toList := by cbv

theorem partSite_readsOutside : ReadsOutside partSite ⟨[]⟩ [liveName] := by
  intro config compiler page source configured prepared isSource read
  cases partSite_config.symm.trans configured
  cases partSite_forProject.symm.trans prepared
  have isPage := (mem_pages_of_walk (by decide) partSite_walk).2 isSource
  obtain ⟨_, entry, isEntry, _⟩ := mem_pages.1 isPage
  cases List.mem_singleton.1 isEntry
  cases partSite_readSource.symm.trans read
  rw [Compiler.recordSource, Journal.staysIn_bind rfl, Journal.staysIn_entered, tokenize_partSource]
  refine ⟨by decide, ?_⟩
  show (partCompiler.recordTokens (63 + 1) _ 0 [partToken]).StaysIn _
  rw [Compiler.recordTokens_inclusion partCompiler rfl]
  refine (Journal.staysIn_quiet _).bind fun target found => ?_
  cases partSite_locate.symm.trans found
  refine (Journal.staysIn_quiet _).bind fun source opened => ?_
  cases partSite_readPart.symm.trans (Except.mapError_eq_ok.1 opened)
  -- The part is entered, and neither in it nor behind the include is there another directive.
  refine (Journal.staysIn_entered.2 (by decide)).bind fun _ _ => ?_
  rw [tokenize_part]
  refine (Compiler.staysIn_of_plain (by decide)).bind fun _ _ => ?_
  refine Journal.staysIn_marked.bind fun _ _ => ?_
  exact (Compiler.staysIn_of_plain (by decide)).bind fun _ _ => Journal.staysIn_pure _

theorem partSite_compilePage : ∃ html,
    compilePage partCompiler {} [templatesName] ["p.html".toList] = .ok html := by
  have read : partCompiler.disk.readSource ([templatesName] ++ ["p.html".toList])
      = .ok partSource := partSite_readSource
  have readPart : partCompiler.disk.readSource partTarget.place = .ok "x".toList :=
    partSite_readPart
  have compiled : ∃ html, partCompiler.resolve (63 + 1)
      { file := pageName ["p.html".toList], slots := .empty, props := .empty } 0 [partToken]
        = .ok html := by
    have kind : partToken.kind = .inclusion := rfl
    have plain : ¬ Token.NamesFile (.rawAt 0 "x".toList) := by decide
    simp only [Compiler.resolve_inclusion partCompiler kind, partSite_locate, readPart,
      tokenize_part, Compiler.resolve_plain partCompiler plain, Compiler.resolve,
      Except.mapError_ok, Except.ok_bind]
    exact ⟨_, rfl⟩
  obtain ⟨html, compiled⟩ := compiled
  have compiled' : partCompiler.compileSource (pageName ["p.html".toList]) partSource
      = .ok html := by
    rw [Compiler.compileSource, tokenize_partSource]
    exact compiled
  simp only [compilePage, read, Except.mapError_ok, Except.ok_bind, compiled']
  exact ⟨_, rfl⟩

theorem partSite_builds_again : ∃ after,
    build partSite ⟨[]⟩ = (.ok { files := [["p.html".toList]] }, after) ∧
      (∃ again, build after ⟨[]⟩ = (.ok { files := [["p.html".toList]] }, again) ∧
        ∀ path, again.entry? path = after.entry? path) ∧
      ∃ after', build (partSite.drop [liveName]) ⟨[]⟩
          = (.ok { files := [["p.html".toList]] }, after') ∧
        ∀ path, after'.entry? path = after.entry? path := by
  have isTree : partSite.IsTree := by decide
  have atRoot : partSite.resolve [] = .ok [] := by cbv
  have notReserved : checkReserved partSite [templatesName] = .ok () := by cbv
  have chosen : Project.pages [(["p.html".toList], .file (Utf8.encode partSource))]
      = [["p.html".toList]] := by decide
  have stages : Stages ⟨[]⟩ (fun _ => none) [["p.html".toList]] := by decide
  obtain ⟨html, rendered⟩ := partSite_compilePage
  have compiles : compiledSite partSite ⟨[]⟩ = .ok [(["p.html".toList], html)] := by
    refine compiledSite_eq_ok.2 ⟨_, partSite_config, notReserved, ?_, stages⟩
    refine compilePages_eq_ok_iff.2
      ⟨_, _, partSite_forProject, partSite_walk, fun _ _ => rfl, ?_⟩
    rw [chosen]
    simp only [templates, List.nil_append, List.mapM_cons, List.mapM_nil, rendered,
      Except.ok_bind]
    rfl
  have found : (partSite.drop [liveName]).placeOf [liveName] = .ok [liveName] := by cbv
  have stands : partSite.entry? [liveName] = some .directory := by decide
  have published : publish partSite (Project.live ⟨[]⟩) (pageTree [(["p.html".toList], html)])
      = (.ok (), _) := publish_of_placeOf found (.inr stands)
  have built : build partSite ⟨[]⟩ = (.ok { files := [["p.html".toList]] }, _) :=
    build_eq_ok.2 ⟨_, compiles, rfl, published⟩
  obtain ⟨again, others⟩ :=
    build_again isTree atRoot (by decide) partSite_readsOutside built
  refine ⟨_, built, again, others _ (by decide) ?_ (.inl (by decide))⟩
  intro path outside
  have notBelow : ¬ [liveName] <+: path := outside liveName List.mem_cons_self
  rw [Disk.entry?_drop (by decide), if_neg notBelow]

end Project

end StaticSite
