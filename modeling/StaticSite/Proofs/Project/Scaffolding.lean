import Mathlib
import StaticSite.Project.Create
import StaticSite.Proofs.Config
import StaticSite.Proofs.Disk.Fronts
import StaticSite.Proofs.Disk.Members
import StaticSite.Proofs.Project.Rebuilding
import StaticSite.Proofs.Project.Reserving
import StaticSite.Proofs.Template.Success
import StaticSite.Proofs.Text.Encoding

/-!
# A scaffold builds

A directory that holds a scaffold and nothing else is a project with one page, and building it
publishes that page.  Only the length of the canonical path can be in the way: it has to be spelled,
and directives open their files under it.
-/

namespace StaticSite.Project

variable {disk : Disk} {root place front : Path} {name room file content : Text}

/-! ## What is in a scaffold -/

/-- The file of a scaffold whose path has the longest text. -/
def navigationPath : Path := ["components".toList, "navigation.html".toList]

/-- The page of a scaffold. -/
def indexPath : Path := ["index.html".toList]

theorem scaffold_file (name : Text) (isFile : (room, file, content) ∈ Scaffold.files) :
    Disk.entry? (scaffold name) [room] = some .directory ∧
      Disk.entry? (scaffold name) [room, file] = some (.file (Utf8.encode content)) := by
  unfold scaffold
  generalize Utf8.encode (Config.forSite name).write = bytes
  simp only [Scaffold.files, List.mem_cons, Prod.mk.injEq, List.not_mem_nil, or_false] at isFile
  obtain ⟨rfl, rfl, rfl⟩ | ⟨rfl, rfl, rfl⟩ | ⟨rfl, rfl, rfl⟩ | ⟨rfl, rfl, rfl⟩ | ⟨rfl, rfl, rfl⟩ :=
    isFile <;>
    exact ⟨rfl, rfl⟩

theorem scaffold_config (name : Text) : Disk.entry? (scaffold name) [configName]
    = some (.file (Utf8.encode (Config.forSite name).write)) := by
  unfold scaffold
  generalize Utf8.encode (Config.forSite name).write = bytes
  rfl

theorem scaffold_templates (name : Text) :
    Disk.entry? (scaffold name) [templatesName] = some .directory ∧
      (scaffold name).below [templatesName]
        = [(indexPath, .file (Utf8.encode Scaffold.indexPage))] ∧
      ∀ reserved ∈ reservedDirectories ++ reservedFiles,
        Disk.entry? (scaffold name) [templatesName, reserved] = none := by
  unfold scaffold
  generalize Utf8.encode (Config.forSite name).write = bytes
  refine ⟨rfl, rfl, ?_⟩
  simp only [reservedDirectories, reservedFiles, List.cons_append, List.nil_append,
    List.forall_mem_cons]
  exact ⟨rfl, rfl, rfl, rfl, nofun⟩

theorem scaffold_rootless (name : Text) : (scaffold name).entries.get? [] = none := by
  unfold scaffold
  generalize Utf8.encode (Config.forSite name).write = bytes
  rfl

theorem scaffold_live (name : Text) : Disk.entry? (scaffold name) [liveName] = some .directory := by
  unfold scaffold
  generalize Utf8.encode (Config.forSite name).write = bytes
  rfl

/-- Every file of a scaffold has short names and a path with a text that is not too long. -/
theorem scaffold_names (isFile : (room, file, content) ∈ Scaffold.files) :
    Text.byteLength room ≤ Disk.maxNameBytes ∧ Text.byteLength file ≤ Disk.maxNameBytes ∧
      '\x00' ∉ PathText.join [room, file] ∧
      Text.byteLength (PathText.join [room, file])
        ≤ Text.byteLength (PathText.join navigationPath) := by
  have each : ∀ row ∈ Scaffold.files,
      Text.byteLength row.1 ≤ Disk.maxNameBytes ∧ Text.byteLength row.2.1 ≤ Disk.maxNameBytes ∧
        '\x00' ∉ PathText.join [row.1, row.2.1] ∧
        Text.byteLength (PathText.join [row.1, row.2.1])
          ≤ Text.byteLength (PathText.join navigationPath) := by
    decide
  exact each _ isFile

/-- Under a path where the file with the longest path text can be opened, all the others can. -/
theorem checkPathText_of_navigation (nonempty : front ≠ [])
    (longest : Disk.checkPathText (Path.text (front ++ navigationPath)) = .ok ())
    (isFile : (room, file, content) ∈ Scaffold.files) :
    Disk.checkPathText (Path.text (front ++ [room, file])) = .ok () := by
  obtain ⟨_, _, characters, shorter⟩ := scaffold_names isFile
  exact Disk.checkPathText_of_shorter nonempty (by simp) (by decide) characters shorter longest

/-! ## Its files in a project -/

/-- Where the path `root` leads, at `place`, there is the scaffold of a new site and nothing else,
also when the published pages are gone. -/
structure HoldsSite (disk : Disk) (root place : Path) (name : Text) : Prop where
  rooted : root ≠ [] ∧ place ≠ []
  reached : (disk.drop (place ++ [liveName])).Reaches root place
  fits : Disk.checkPathText (Path.text (root ++ navigationPath)) = .ok ()
  holds : ∀ path, disk.entry? (place ++ path) = Disk.entry? (scaffold name) path

namespace HoldsSite

variable (site : HoldsSite disk root place name)

include site

theorem reaches : disk.Reaches root place :=
  site.reached.mono (Disk.drop_within (by simp))

/-- The canonical path leads there as well. -/
theorem atPlace : disk.Reaches place place := by
  obtain ⟨⟨left, leads⟩, inside⟩ := site.reaches
  exact ⟨⟨_, (leads.isCanonical Disk.isCanonical_nil).leads⟩, inside⟩

theorem holds_file (isFile : (room, file, content) ∈ Scaffold.files) :
    disk.entry? (place ++ [room]) = some .directory ∧
      disk.entry? (place ++ [room] ++ [file]) = some (.file (Utf8.encode content)) := by
  obtain ⟨isRoom, stands⟩ := scaffold_file name isFile
  rw [List.append_assoc, site.holds, site.holds]
  exact ⟨isRoom, stands⟩

theorem isCanonical_file (isFile : (room, file, content) ∈ Scaffold.files) :
    disk.IsCanonical (place ++ [room] ++ [file]) := by
  obtain ⟨isRoom, stands⟩ := site.holds_file isFile
  obtain ⟨short, short', _⟩ := scaffold_names isFile
  obtain ⟨⟨_, leads⟩, _⟩ := site.atPlace.enter short isRoom
  exact Disk.isCanonical_snoc (leads.isCanonical Disk.isCanonical_nil) isRoom short' stands nofun

theorem readSource_eq (reaches : disk.Reaches front place)
    (isFile : (room, file, content) ∈ Scaffold.files) : disk.readSource (front ++ [room, file])
      = (do Disk.checkPathText (Path.text (front ++ [room, file])); .ok content) := by
  obtain ⟨isRoom, stands⟩ := site.holds_file isFile
  obtain ⟨short, short', _⟩ := scaffold_names isFile
  have noLink : ∀ target, disk.entry? (place ++ [room] ++ [file]) ≠ some (.link target) := by
    intro target
    rw [stands]
    nofun
  have found := (reaches.enter short isRoom).find_eq short' noLink
  rw [List.append_assoc front, List.singleton_append] at found
  rw [Disk.readSource, Disk.readBytes, found, stands]
  cases Disk.checkPathText (Path.text (front ++ [room, file])) with
  | error fault => rfl
  | ok _ =>
    change Except.ok (Utf8.decodeLossy (Utf8.encode content)) = .ok content
    rw [Utf8.decodeLossy_encode]

theorem opens_top (top : Text) (isTop : top ∈ [configName, templatesName, liveName]) :
    Disk.checkPathText (Path.text (root ++ [top])) = .ok () := by
  have fits : ∀ top ∈ [configName, templatesName, liveName], '\x00' ∉ PathText.join [top] ∧
      Text.byteLength (PathText.join [top]) ≤ Text.byteLength (PathText.join navigationPath) := by
    decide
  obtain ⟨characters, shorter⟩ := fits top isTop
  exact Disk.checkPathText_of_shorter site.rooted.1 (by simp) (by decide) characters shorter
    site.fits

theorem config_eq : config disk ⟨root⟩ = .ok (Config.forSite name) := by
  have stands : disk.entry? (place ++ [configName])
      = some (.file (Utf8.encode (Config.forSite name).write)) := by
    rw [site.holds, scaffold_config]
  have opens := site.opens_top configName (by decide)
  have found : disk.find (root ++ [configName])
      = .ok (.file (Utf8.encode (Config.forSite name).write)) := by
    rw [site.reaches.find_eq (by decide) (by simp [stands]), opens, Except.ok_bind, stands]
  have isFile : disk.isFile (root ++ [configName]) = true := by rw [Disk.isFile, found]
  have read : disk.readText (root ++ [configName]) = .ok (Config.forSite name).write :=
    Disk.readText_eq_ok.2 ⟨_, Disk.readBytes_eq_ok.2 found, Utf8.decode?_encode _⟩
  have small : (Config.forSite name).build.maxDepth < 2 ^ 63 := by
    change defaultMaxDepth < 2 ^ 63
    decide
  rw [config, configFile, if_pos isFile, configOfFile, read, Except.mapError_ok, Except.ok_bind,
    Config.read?_write small]
  rfl

theorem reaches_templates : disk.Reaches (root ++ [templatesName]) (place ++ [templatesName]) := by
  refine site.reaches.enter (by decide) ?_
  rw [site.holds, (scaffold_templates name).1]

theorem checkReserved_eq : checkReserved disk (root ++ [templatesName]) = .ok () := by
  have free : ∀ reserved ∈ reservedDirectories ++ reservedFiles, ∀ entry,
      disk.find (root ++ [templatesName] ++ [reserved]) ≠ .ok entry := by
    intro reserved isReserved entry found
    have short : ∀ reserved ∈ reservedDirectories ++ reservedFiles,
        Text.byteLength reserved ≤ Disk.maxNameBytes := by decide
    have missing : disk.entry? (place ++ [templatesName] ++ [reserved]) = none := by
      rw [List.append_assoc, site.holds]
      exact (scaffold_templates name).2.2 reserved isReserved
    have noLink : ∀ target,
        disk.entry? (place ++ [templatesName] ++ [reserved]) ≠ some (.link target) := by
      intro target
      rw [missing]
      nofun
    rw [site.reaches_templates.find_eq (short _ isReserved) noLink, missing,
      Except.check_bind_eq_ok] at found
    cases found.2
  rw [checkReserved_eq_ok]
  constructor
  · intro reserved isReserved
    rw [← Bool.not_eq_true, Disk.isDirectory_eq_true]
    exact free reserved (List.mem_append_left _ isReserved) _
  · intro reserved isReserved there
    obtain ⟨entry, found⟩ := Disk.exists?_eq_true.1 there
    exact absurd found (free reserved (List.mem_append_right _ isReserved) entry)

theorem walk_eq : walk disk (root ++ [templatesName])
    = .ok ⟨[(indexPath, .file (Utf8.encode Scaffold.indexPage))], none⟩ := by
  obtain ⟨isDirectory, holdsIndex, _⟩ := scaffold_templates name
  have stands : disk.entry? (place ++ [templatesName]) = some .directory := by
    rw [site.holds, isDirectory]
  have opens := site.opens_top templatesName (by decide)
  have found : disk.find (root ++ [templatesName]) = .ok .directory := by
    rw [site.reaches.find_eq (by decide) (by simp [stands]), opens, Except.ok_bind, stands]
  obtain ⟨⟨_, leads⟩, _⟩ := site.reaches_templates
  have resolved : disk.resolve (root ++ [templatesName]) = .ok (place ++ [templatesName]) :=
    Disk.resolve_eq_ok.2 ⟨(Disk.checkPathText_eq_ok.1 opens).1, leads.follow⟩
  have same : disk.below (place ++ [templatesName]) = (scaffold name).below [templatesName] :=
    Disk.below_eq_of_entries fun path => by rw [List.append_assoc, site.holds]
  refine walk_eq_ok.2 (.inl ⟨_, found, rfl, resolved, ?_, ?_⟩)
  · rw [same, holdsIndex]
  · -- Below the templates there is a file and no directory.
    intro row isRow isDirectory'
    rw [List.mem_singleton.1 isRow] at isDirectory'
    cases isDirectory'

/-- The page can be made aside, because its path there is not longer than that of the file with the
longest path. -/
theorem stages : Stages ⟨root⟩ (fun _ => none) [indexPath] := by
  have fits : ∀ path ∈ stagedPaths [indexPath],
      '\x00' ∉ PathText.join (Disk.temporaryName 0 :: path) ∧
        Text.byteLength (PathText.join (Disk.temporaryName 0 :: path))
          ≤ Text.byteLength (PathText.join navigationPath) := by
    decide
  intro path isMade
  obtain ⟨characters, shorter⟩ := fits path isMade
  have opens := Disk.checkPathText_of_shorter site.rooted.1 (List.cons_ne_nil _ _) (by decide)
    characters shorter site.fits
  rw [checkMaking, aside, List.append_assoc, List.singleton_append, opens]
  rfl

end HoldsSite

/-! ## Compiling its page -/

theorem tokens_indexPage : ∃ token rest, tokenize Scaffold.indexPage = token :: rest ∧
    token.kind = .layout ∧
    (Arguments.ofText token.content).main = "./layouts/guest_layout.html".toList ∧
    ∀ other ∈ rest, ¬ other.NamesFile := by
  have first : (tokenize Scaffold.indexPage).head?.map
      (fun token => (token.kind, (Arguments.ofText token.content).main))
        = some (.layout, "./layouts/guest_layout.html".toList) := by
    decide +kernel
  have others : ∀ other ∈ (tokenize Scaffold.indexPage).tail,
      other.kind ≠ .inclusion ∧ other.kind ≠ .layout := by
    decide +kernel
  cases tokens : tokenize Scaffold.indexPage with
  | nil => simp [tokens] at first
  | cons token rest =>
    rw [tokens, List.head?_cons, Option.map_some, Option.some.injEq, Prod.mk.injEq] at first
    rw [tokens, List.tail_cons] at others
    exact ⟨token, rest, rfl, first.1, first.2, fun other isIn => not_or.2 (others other isIn)⟩

/-- The targets of the includes among tokens. -/
def includedFiles (tokens : List Token) : List Text :=
  (tokens.filter (·.kind = .inclusion)).map fun token => (Arguments.ofText token.content).main

theorem tokens_guestLayout : (∀ token ∈ tokenize Scaffold.guestLayout, token.kind ≠ .layout) ∧
    includedFiles (tokenize Scaffold.guestLayout)
      = ["./components/navigation.html".toList, "./components/footer.html".toList] := by
  decide +kernel

theorem tokens_components : ∀ token ∈ tokenize Scaffold.navigation ++ tokenize Scaffold.footer,
    ¬ token.NamesFile := by
  have facts : ∀ token ∈ tokenize Scaffold.navigation ++ tokenize Scaffold.footer,
      token.kind ≠ .inclusion ∧ token.kind ≠ .layout := by
    decide +kernel
  exact fun token isIn => not_or.2 (facts token isIn)

/-- The tree that is staged for the one page. -/
theorem pageTree_indexPage (html : Text) :
    (pageTree [(indexPath, html)]).entries.get? [] = none ∧
      (pageTree [(indexPath, html)]).below [] = [(indexPath, .file (Utf8.encode html))] := by
  simp only [pageTree, List.foldl_cons, List.foldl_nil, putPage]
  generalize Utf8.encode html = bytes
  exact ⟨rfl, rfl⟩

namespace HoldsSite

variable (site : HoldsSite disk root place name)

include site

/-- A directive in a site opens the file that it names, if the path text is not too long. -/
theorem opens_iff {relative : Text} {maxDepth : Nat} {good : Text → Prop}
    (names : PathText.normalize? relative = some [room, file])
    (isFile : (room, file, content) ∈ Scaffold.files) :
    (∃ target source, Compiler.locate ⟨disk, place, maxDepth⟩ relative = .ok target ∧
        disk.readSource target.place = .ok source ∧ good source) ↔
      Disk.checkPathText (Path.text (place ++ [room, file])) = .ok () ∧ good content := by
  have contained : disk.contain? place relative
      = some ⟨place ++ [room, file], PathText.join [room, file]⟩ := by
    simp only [Disk.contain?, names, bind, Option.bind]
    split
    · next goal spelled =>
      have canonical := site.isCanonical_file isFile
      rw [List.append_assoc, List.singleton_append] at canonical
      obtain rfl := canonical.resolve_eq (Disk.resolve_of_canonical spelled)
      rw [if_pos (List.isPrefixOf_iff_prefix.2 (List.prefix_append _ _))]
    · rfl
  have located : Compiler.locate ⟨disk, place, maxDepth⟩ relative
      = .ok ⟨place ++ [room, file], PathText.join [room, file]⟩ := by
    rw [Compiler.locate, contained]
  have read := site.readSource_eq site.atPlace isFile
  rw [located]
  constructor
  · rintro ⟨target, source, same, opened, isGood⟩
    cases same
    rw [read, Except.check_bind_eq_ok] at opened
    obtain ⟨checked, same⟩ := opened
    cases same
    exact ⟨checked, isGood⟩
  · rintro ⟨checked, isGood⟩
    rw [checked, Except.ok_bind] at read
    exact ⟨_, _, rfl, read, isGood⟩

/-- The page compiles exactly if the longest path text is not too long. -/
theorem compiles_indexPage {levels maxDepth : Nat} (two : 2 ≤ levels) :
    Compiler.Compiles ⟨disk, place, maxDepth⟩ levels (tokenize Scaffold.indexPage) ↔
      Disk.checkPathText (Path.text (place ++ navigationPath)) = .ok () := by
  obtain ⟨deeper, rfl⟩ := Nat.exists_eq_add_of_le' two
  obtain ⟨token, rest, tokens, kind, main, plain⟩ := tokens_indexPage
  obtain ⟨noLayout, included⟩ := tokens_guestLayout
  have isNavigation : ("components".toList, "navigation.html".toList, Scaffold.navigation)
      ∈ Scaffold.files := by simp [Scaffold.files]
  have isFooter : ("components".toList, "footer.html".toList, Scaffold.footer)
      ∈ Scaffold.files := by simp [Scaffold.files]
  have isLayout : ("layouts".toList, "guest_layout.html".toList, Scaffold.guestLayout)
      ∈ Scaffold.files := by simp [Scaffold.files]
  have isIncluded : ∀ relative, relative ∈ includedFiles (tokenize Scaffold.guestLayout) ↔
      ∃ token ∈ tokenize Scaffold.guestLayout, token.kind = .inclusion ∧
        (Arguments.ofText token.content).main = relative := by
    simp [includedFiles, and_assoc]
  rw [tokens, Compiler.compiles_layout_iff kind plain, main,
    site.opens_iff (by decide) isLayout, Compiler.compiles_iff_of_noLayout noLayout]
  -- Of the three files that the page leads to the navigation has the longest path.
  constructor
  · rintro ⟨_, opens⟩
    obtain ⟨token, isIn, kind, main⟩ :=
      (isIncluded "./components/navigation.html".toList).1 (by rw [included]; simp)
    have opened := opens token isIn kind
    rw [main, site.opens_iff (by decide) isNavigation] at opened
    exact opened.1
  · intro longest
    refine ⟨checkPathText_of_navigation site.rooted.2 longest isLayout, ?_⟩
    intro token isIn kind
    have isListed := (isIncluded _).2 ⟨token, isIn, kind, rfl⟩
    rw [included, List.mem_cons, List.mem_singleton] at isListed
    rcases isListed with main | main
    · rw [main, site.opens_iff (by decide) isNavigation]
      refine ⟨longest, Compiler.compiles_of_plain fun token isIn => ?_⟩
      exact tokens_components token (List.mem_append_left _ isIn)
    · rw [main, site.opens_iff (by decide) isFooter]
      refine ⟨checkPathText_of_navigation site.rooted.2 longest isFooter,
        Compiler.compiles_of_plain fun token isIn => ?_⟩
      exact tokens_components token (List.mem_append_right _ isIn)

/-! ## Building it -/

theorem compilePage_eq_ok_iff (stamps : PageStamps) :
    (∃ html, compilePage ⟨disk, place, defaultMaxDepth⟩ stamps (root ++ [templatesName]) indexPath
        = .ok html) ↔
      Disk.checkPathText (Path.text (place ++ navigationPath)) = .ok () := by
  have isIndex : (templatesName, "index.html".toList, Scaffold.indexPage) ∈ Scaffold.files :=
    .tail _ (.tail _ (.tail _ (.head _)))
  have read : disk.readSource (root ++ [templatesName] ++ indexPath) = .ok Scaffold.indexPage := by
    rw [List.append_assoc, indexPath, List.singleton_append,
      site.readSource_eq site.reaches isIndex,
      checkPathText_of_navigation site.rooted.1 site.fits isIndex, Except.ok_bind]
  have two : 2 ≤ defaultMaxDepth := by decide
  rw [← site.compiles_indexPage two, ← Compiler.compileSource_eq_ok_iff (pageName indexPath)]
  simp only [compilePage, read, Except.mapError_ok, Except.ok_bind, Except.bind_eq_ok,
    Except.mapError_eq_ok]
  constructor
  · rintro ⟨_, html, compiled, _⟩
    exact ⟨html, compiled⟩
  · rintro ⟨html, compiled⟩
    exact ⟨_, html, compiled, rfl⟩

/-- The compiler of the project is at its place, if the canonical path can be spelled. -/
theorem forProject_eq_ok {maxDepth : Nat} {compiler : Compiler} :
    Compiler.forProject disk root maxDepth = .ok compiler ↔
      disk.canonical root = .ok place ∧ compiler = ⟨disk, place, maxDepth⟩ := by
  simp only [Compiler.forProject, Except.bind_eq_ok, Except.mapError_eq_ok, Except.ok.injEq]
  constructor
  · rintro ⟨goal, spelled, rfl⟩
    obtain ⟨⟨_, leads⟩, _⟩ := site.reaches
    have followed := (Disk.resolve_eq_ok.1 (Disk.resolve_of_canonical spelled)).2
    obtain ⟨_, leads'⟩ := Disk.follow_eq_ok.1 followed
    obtain rfl := leads.place_eq leads'
    exact ⟨spelled, rfl⟩
  · rintro ⟨spelled, rfl⟩
    exact ⟨place, spelled, rfl⟩

theorem compiledSite_eq_ok {compiled : List (Path × Text)} :
    compiledSite disk ⟨root⟩ = .ok compiled ↔ disk.canonical root = .ok place ∧
      ∃ html, compilePage ⟨disk, place, defaultMaxDepth⟩ (Config.forSite name).build.stamps
          (root ++ [templatesName]) indexPath = .ok html ∧ compiled = [(indexPath, html)] := by
  have chosen : pages [(indexPath, .file (Utf8.encode Scaffold.indexPage))] = [indexPath] := by
    simp only [pages, List.filterMap_cons]
    rfl
  have single : ∀ compiler : Compiler, ([indexPath].mapM fun page => do
      .ok (page, ← compilePage compiler (Config.forSite name).build.stamps
        (templates ⟨root⟩) page)) = .ok compiled ↔
      ∃ html, compilePage compiler (Config.forSite name).build.stamps
        (root ++ [templatesName]) indexPath = .ok html ∧ compiled = [(indexPath, html)] := by
    intro compiler
    rw [List.mapM_cons, List.mapM_nil, templates]
    simp only [Except.bind_eq_ok, Except.ok.injEq]
    constructor
    · rintro ⟨_, ⟨html, rendered, rfl⟩, _, done, same⟩
      cases done
      cases same
      exact ⟨html, rendered, rfl⟩
    · rintro ⟨html, rendered, rfl⟩
      exact ⟨_, ⟨html, rendered, rfl⟩, _, rfl, rfl⟩
  rw [Project.compiledSite_eq_ok]
  constructor
  · rintro ⟨config, configured, _, compiles, _⟩
    rw [site.config_eq] at configured
    cases configured
    obtain ⟨compiler, entries, prepared, walked, _, mapped⟩ := compilePages_eq_ok_iff.1 compiles
    obtain ⟨spelled, rfl⟩ := site.forProject_eq_ok.1 prepared
    rw [templates, site.walk_eq] at walked
    cases walked
    rw [chosen, single] at mapped
    exact ⟨spelled, mapped⟩
  · rintro ⟨spelled, html, rendered, rfl⟩
    refine ⟨_, site.config_eq, site.checkReserved_eq, ?_, site.stages⟩
    refine compilePages_eq_ok_iff.2
      ⟨_, _, site.forProject_eq_ok.2 ⟨spelled, rfl⟩, site.walk_eq, fun _ _ => rfl, ?_⟩
    rw [chosen, single]
    exact ⟨html, rendered, rfl⟩

/-- A scaffold builds, and its one page is published, if the canonical path can be spelled and the
longest path text under it is not too long. -/
theorem builds (spelled : disk.canonical root = .ok place)
    (longest : Disk.checkPathText (Path.text (place ++ navigationPath)) = .ok ()) :
    ∃ after html, build disk ⟨root⟩ = (.ok { files := [indexPath] }, after) ∧
      after.below (place ++ [liveName]) = [(indexPath, .file (Utf8.encode html))] ∧
      ∀ other, ¬ place ++ [liveName] <+: other → after.entry? other = disk.entry? other := by
  obtain ⟨html, rendered⟩ := (site.compilePage_eq_ok_iff _).2 longest
  have compiles := site.compiledSite_eq_ok.2 ⟨spelled, html, rendered, rfl⟩
  have notRoot : place ++ [liveName] ≠ [] := by simp
  have opens := site.opens_top liveName (by decide)
  have found : (disk.drop (place ++ [liveName])).placeOf (root ++ [liveName])
      = .ok (place ++ [liveName]) := by
    rw [site.reached.placeOf_eq (by decide), opens, Except.ok_bind]
  have stands : disk.entry? (place ++ [liveName]) = some .directory := by
    rw [site.holds, scaffold_live]
  have published : publish disk (root ++ [liveName]) (pageTree [(indexPath, html)])
      = (.ok (), _) := publish_of_placeOf found (.inr stands)
  refine ⟨_, html, build_eq_ok.2 ⟨_, compiles, rfl, published⟩, ?_, ?_⟩
  · obtain ⟨rootless, holdsIndex⟩ := pageTree_indexPage html
    rw [← holdsIndex]
    refine Disk.below_eq_of_entries fun path => Disk.entry?_graft_of_bare notRoot rootless ?_
    intro path _
    rw [Disk.entry?_drop notRoot, if_pos (List.prefix_append _ _)]
  · intro other apart
    rw [Disk.entry?_graft_outside apart, Disk.entry?_drop notRoot, if_neg apart]

/-- Otherwise it does not build. -/
theorem fits_of_build {report : BuildReport} {after : Disk}
    (built : build disk ⟨root⟩ = (.ok report, after)) : disk.canonical root = .ok place ∧
      Disk.checkPathText (Path.text (place ++ navigationPath)) = .ok () := by
  obtain ⟨compiled, compiles, _⟩ := build_eq_ok.1 built
  obtain ⟨spelled, html, rendered, _⟩ := site.compiledSite_eq_ok.1 compiles
  exact ⟨spelled, (site.compilePage_eq_ok_iff _).1 ⟨html, rendered⟩⟩

end HoldsSite

end StaticSite.Project
