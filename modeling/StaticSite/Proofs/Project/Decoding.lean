import StaticSite.Proofs.Page.Stamping
import StaticSite.Proofs.Project.Publication
import StaticSite.Proofs.Project.Rebuilding
import StaticSite.Proofs.Template.Seams
import StaticSite.Proofs.Text.Encoding

/-!
# Provenance that is read back

What a published page tells of its source and of the files that it was put together from is what the
build has written, except for names that end their value or their comment early and for names that
a stamp lands in.
-/

namespace StaticSite.Project

open PageStamps

variable {disk after : Disk} {project : Project} {options : BuildOptions} {report : BuildReport}
  {trouble : BuildTrouble} {stamps : PageStamps} {page : Path} {html published : Text}

/-- What can be read back from a page that was compiled to `html` and published as `published`. -/
structure Traceable (stamps : PageStamps) (page : Path) (html published : Text) : Prop where
  /-- The source path, unless it has a quote or the script lands in it. -/
  sourcePath : ∀ front rest, stamps.sourcePath = true →
    Text.cut bodyTag html = some (front, rest) →
      (readSourcePath? published = some (pageName page) ↔ '"' ∉ pageName page ∧
        (stamps.adminScript = true → bodyClose <:+: pageName page → bodyClose <:+: front))
  /-- Every marker that no stamp lands in, if its file name is decodable. -/
  markers : ∀ file index front behind, html = front ++ (includeMarker file index ++ behind) →
    (stamps.sourcePath = true → ¬ bodyTag <:+: file) →
    (stamps.adminScript = true → ¬ bodyClose <:+: file) →
      ∃ front' behind', published = front' ++ (includeMarker file index ++ behind') ∧
        front.Sublist front' ∧ behind.Sublist behind' ∧
        (readMarker? (includeMarker file index ++ behind') = some (file, Text.ofNat index)
          ↔ Decodable file)

theorem traceable_apply : Traceable stamps page html (stamps.apply (pageName page) html) where
  sourcePath _ _ named found := readSourcePath?_apply named found
  markers file index front behind split noTag noClose := by
    obtain ⟨front', behind', split', inFront, inBehind⟩ :=
      keeps_includeMarker noTag noClose front behind split
    exact ⟨front', behind', split', inFront, inBehind, readMarker?_includeMarker⟩

/-- What a page tells of its source and its parts is read back from where it is published. -/
theorem buildWith_provenance_decodes (isTree : disk.IsTree)
    (built : buildWith disk project options trouble = (.ok report, after)) :
    ∃ place, after.placeOf project.live = .ok place ∧ ∀ page ∈ report.files,
      ∃ compiler source html published,
        Compiler.forProject disk project.root options.maxDepth = .ok compiler ∧
        disk.readSource (project.templates ++ page) = .ok source ∧
        compiler.compileSource (pageName page) source = .ok html ∧
        after.entry? (place ++ page) = some (.file (Utf8.encode published)) ∧
        Traceable options.stamps page html published := by
  obtain ⟨place, publishes⟩ := buildWith_publishes isTree built
  refine ⟨place, publishes.atPlace, fun page listed => ?_⟩
  have isSource := (publishes.listed page).1 listed
  obtain ⟨published, renders⟩ := publishes.rendered page isSource
  have found := (publishes.files page _).2 ⟨isSource, published, renders, rfl⟩
  obtain ⟨compiler, source, html, prepared, read, compiles, rfl⟩ := renders
  exact ⟨compiler, source, html, _, prepared, read, compiles, found, traceable_apply⟩

/-! ## Sites with one page -/

theorem compilePages_of_single {entries : List (Path × Entry)} {source : Text}
    (prepared : Compiler.forProject disk [] options.maxDepth = .ok ⟨disk, [], options.maxDepth⟩)
    (walked : walk disk [templatesName] = .ok ⟨entries, none⟩) (chosen : pages entries = [page])
    (isFile : disk.readBytes ([templatesName] ++ page) = .ok (Utf8.encode source))
    (compiled : (⟨disk, [], options.maxDepth⟩ : Compiler).compileSource (pageName page) source
      = .ok html) :
    compilePages disk ⟨[]⟩ options = .ok [(page, options.stamps.apply (pageName page) html)] := by
  have inTemplates : templates ⟨[]⟩ = [templatesName] := rfl
  have read : disk.readSource ([templatesName] ++ page) = .ok source :=
    Disk.readSource_eq_ok.2 ⟨_, isFile, Utf8.decodeLossy_encode source⟩
  refine compilePages_eq_ok_iff.2 ⟨_, _, prepared, walked, fun _ _ => rfl, ?_⟩
  rw [chosen, List.mapM_cons, inTemplates, compilePage, read, Except.mapError_ok, Except.ok_bind,
    compiled]
  rfl

/-- A page that compiles is published where nothing has been published before. -/
theorem buildWith_of_free (isTree : disk.IsTree)
    (notReserved : checkReserved disk [templatesName] = .ok ())
    (free : disk.entry? [liveName] = none) (found : disk.placeOf [liveName] = .ok [liveName])
    (nonempty : page ≠ []) (stages : Stages ⟨[]⟩ (fun _ => none) [page])
    (compiles : compilePages disk ⟨[]⟩ options = .ok [(page, published)]) :
    ∃ after, buildWith disk ⟨[]⟩ options = (.ok { files := [page] }, after) ∧
      after.placeOf [liveName] = .ok [liveName] ∧
      after.entry? ([liveName] ++ page) = some (.file (Utf8.encode published)) := by
  have unchanged := isTree.drop_of_free free
  rw [← unchanged] at found
  have put : publish disk (live ⟨[]⟩) (pageTree [(page, published)])
      = (.ok (), (disk.drop [liveName]).graft [liveName] (pageTree [(page, published)])) :=
    publish_of_placeOf found (.inl unchanged)
  refine ⟨(disk.drop [liveName]).graft [liveName] (pageTree [(page, published)]),
    buildWith_eq_ok.2 ⟨_, notReserved, compiles, stages, rfl, put⟩,
    (publishes_of_graft isTree (List.cons_ne_nil _ _) compiles found).atPlace, ?_⟩
  have staged : (pageTree [(page, published)]).entries.get? page
      = some (.file (Utf8.encode published)) := by
    rw [pageTree, List.foldl_cons, List.foldl_nil, get?_putPage nonempty, if_pos rfl]
  rw [Disk.entry?_graft (List.cons_ne_nil _ _), staged, Option.some_or]

/-! ## A page that includes a component -/

def includingSource : Text :=
  "<body>\x7b\x7b include \"c\" \x7d\x7d</body>".toList

/-- What the source comes to when the component is empty. -/
def includingHtml : Text :=
  "<body>".toList ++ (includeMarker (pageName ["p.html".toList]) 1
    ++ (includeEndMarker ++ "</body>".toList))

def includingSite (source : List UInt8) : Disk :=
  ((Disk.empty.put [templatesName] .directory).put [templatesName, "p.html".toList]
    (.file source)).put ["c".toList] (.file [])

section

variable (bytes : List UInt8)

theorem includingSite_prepared : Compiler.forProject (includingSite bytes) [] 1
    = .ok ⟨includingSite bytes, [], 1⟩ := by cbv

theorem includingSite_isFile :
    (includingSite bytes).readBytes ([templatesName] ++ ["p.html".toList]) = .ok bytes := by cbv

theorem includingSite_compiled :
    (⟨includingSite bytes, [], 1⟩ : Compiler).compileSource (pageName ["p.html".toList])
      includingSource = .ok includingHtml := by
  have tokens : tokenize includingSource
      = [.rawAt 0 "<body>".toList, ⟨.inclusion, "\"c\"".toList, 6, 23⟩,
        .rawAt 23 "</body>".toList] := by cbv
  have located : (⟨includingSite bytes, [], 1⟩ : Compiler).locate
      (Arguments.ofText "\"c\"".toList).main = .ok ⟨["c".toList], "c".toList⟩ := by cbv
  have read : (includingSite bytes).readSource ["c".toList] = .ok [] := by cbv
  have noTokens : tokenize [] = [] := by cbv
  rw [Compiler.compileSource, tokens, Compiler.resolve_plain _ (by decide),
    Compiler.resolve_inclusion _ rfl, located, Except.ok_bind, read, Except.mapError_ok,
    Except.ok_bind, noTokens, Compiler.resolve_of_raw (by decide), Except.ok_bind,
    Compiler.resolve_of_raw (by decide), Except.ok_bind, Except.ok_bind]
  unfold includingHtml
  simp only [Compiler.plainHtml, Token.rawAt, List.flatMap_nil, List.flatMap_cons, List.append_nil,
    List.append_assoc]

theorem includingSite_buildWith {source html : Text} (stamps : PageStamps)
    (encoded : Utf8.encode source = bytes)
    (compiled : (⟨includingSite bytes, [], 1⟩ : Compiler).compileSource
      (pageName ["p.html".toList]) source = .ok html) :
    (includingSite bytes).IsTree ∧ ∃ after,
      buildWith (includingSite bytes) ⟨[]⟩ { maxDepth := 1, stamps }
        = (.ok { files := [["p.html".toList]] }, after) ∧
      after.placeOf [liveName] = .ok [liveName] := by
  have walked : walk (includingSite bytes) [templatesName]
      = .ok ⟨[(["p.html".toList], .file bytes)], none⟩ := by cbv
  have chosen : pages [(["p.html".toList], .file bytes)] = [["p.html".toList]] := by
    rw [pages, List.filterMap_cons_some (b := ["p.html".toList])]
    · rfl
    · exact if_pos ⟨by simp, by decide⟩
  have isTree : (includingSite bytes).IsTree := of_decide_eq_true (by cbv)
  have notReserved : checkReserved (includingSite bytes) [templatesName] = .ok () := by cbv
  have free : Disk.entry? (includingSite bytes) [liveName] = none := by cbv
  have found : (includingSite bytes).placeOf [liveName] = .ok [liveName] := by cbv
  have compiles : compilePages (includingSite bytes) ⟨[]⟩ { maxDepth := 1, stamps } = .ok _ :=
    compilePages_of_single (includingSite_prepared bytes) walked chosen
      (encoded ▸ includingSite_isFile bytes) compiled
  obtain ⟨after, built, atPlace, _⟩ :=
    buildWith_of_free isTree notReserved free found (List.cons_ne_nil _ _) (by decide) compiles
  exact ⟨isTree, after, built, atPlace⟩

end

theorem includingSite_provenance_decodes :
    (includingSite (Utf8.encode includingSource)).IsTree ∧ ∃ after published,
      buildWith (includingSite (Utf8.encode includingSource)) ⟨[]⟩ { maxDepth := 1 }
        = (.ok { files := [["p.html".toList]] }, after) ∧
      after.entry? [liveName, "p.html".toList] = some (.file (Utf8.encode published)) ∧
      readSourcePath? published = some (pageName ["p.html".toList]) ∧
      ∃ front behind,
        published = front ++ (includeMarker (pageName ["p.html".toList]) 1 ++ behind) ∧
        readMarker? (includeMarker (pageName ["p.html".toList]) 1 ++ behind)
          = some (pageName ["p.html".toList], "1".toList) := by
  obtain ⟨isTree, after, built, atLive⟩ := includingSite_buildWith _ {} rfl
    (includingSite_compiled (Utf8.encode includingSource))
  obtain ⟨place, atPlace, each⟩ := buildWith_provenance_decodes isTree built
  obtain ⟨compiler, source, html, published, prepared, read, compiled, found, traceable⟩ :=
    each ["p.html".toList] List.mem_cons_self
  cases atLive.symm.trans atPlace
  cases (includingSite_prepared _).symm.trans prepared
  cases read.symm.trans (Disk.readSource_eq_ok.2
    ⟨_, includingSite_isFile _, Utf8.decodeLossy_encode includingSource⟩)
  cases (includingSite_compiled _).symm.trans compiled
  have plain : '"' ∉ pageName ["p.html".toList] := by decide
  have noClose : ¬ bodyClose <:+: pageName ["p.html".toList] := Text.not_infix (by decide)
  have noTag : ¬ bodyTag <:+: pageName ["p.html".toList] := Text.not_infix (by decide)
  have decodable : Decodable (pageName ["p.html".toList]) :=
    decodable_of_plain plain (by decide) (by decide)
  obtain ⟨front, behind, split, _, _, decodes⟩ := traceable.markers _ 1 _ _ rfl
    (fun _ => noTag) (fun _ => noClose)
  refine ⟨isTree, after, published, built, found, ?_, front, behind, split, decodes.2 decodable⟩
  have opens : "<body>".toList = bodyTag ++ ['>'] := by decide
  have cutThere : Text.cut bodyTag includingHtml = some ([], ['>'] ++
      (includeMarker (pageName ["p.html".toList]) 1 ++
        (includeEndMarker ++ "</body>".toList))) := by
    unfold includingHtml
    rw [opens, List.append_assoc]
    exact Text.cut_append (by decide) Text.firstBehind_nil
  exact (traceable.sourcePath _ _ rfl cutThere).2 ⟨plain, fun _ inName => absurd inName noClose⟩

/-! ## A page whose name closes the body -/

def closingPage : Path := ["<".toList, "body>.html".toList]

def closingSite (source : List UInt8) : Disk :=
  ((Disk.empty.put [templatesName] .directory).put [templatesName, "<".toList] .directory).put
    (templatesName :: closingPage) (.file source)

theorem closingSite_publishes {bytes : List UInt8} {source html : Text}
    (encoded : Utf8.encode source = bytes)
    (compiled : (⟨closingSite bytes, [], defaultMaxDepth⟩ : Compiler).compileSource
      (pageName closingPage) source = .ok html) :
    ∃ after, build (closingSite bytes) ⟨[]⟩ = (.ok { files := [closingPage] }, after) ∧
      after.entry? (liveName :: closingPage) = some (.file (Utf8.encode
        (PageStamps.apply {} (pageName closingPage) html))) := by
  have prepared : Compiler.forProject (closingSite bytes) [] defaultMaxDepth
      = .ok ⟨closingSite bytes, [], defaultMaxDepth⟩ := by cbv
  have isFile : (closingSite bytes).readBytes ([templatesName] ++ closingPage) = .ok bytes := by
    cbv
  have walked : walk (closingSite bytes) [templatesName]
      = .ok ⟨[(["<".toList], .directory), (closingPage, .file bytes)], none⟩ := by cbv
  have chosen : pages [(["<".toList], .directory), (closingPage, .file bytes)]
      = [closingPage] := by
    rw [pages, List.filterMap_cons_none, List.filterMap_cons_some (b := closingPage)]
    · rfl
    · exact if_pos ⟨by simp, by decide⟩
    · exact if_neg (by simp)
  have isTree : (closingSite bytes).IsTree := of_decide_eq_true (by cbv)
  have notReserved : checkReserved (closingSite bytes) [templatesName] = .ok () := by cbv
  have free : Disk.entry? (closingSite bytes) [liveName] = none := by cbv
  have found : (closingSite bytes).placeOf [liveName] = .ok [liveName] := by cbv
  have noConfig : (closingSite bytes).isFile [configName] = false := by cbv
  have configured : Project.config (closingSite bytes) ⟨[]⟩ = .ok {} :=
    if_neg (Bool.eq_false_iff.1 noConfig)
  have compiles : compilePages (closingSite bytes) ⟨[]⟩ {} = .ok _ :=
    compilePages_of_single prepared walked chosen (encoded ▸ isFile) compiled
  obtain ⟨after, built, _, published⟩ :=
    buildWith_of_free isTree notReserved free found (List.cons_ne_nil _ _) (by decide) compiles
  refine ⟨after, ?_, published⟩
  rw [build, configured]
  exact built

/-- The script lands in the source path, which is not read back. -/
theorem closingSite_source_path_lost :
    pageName closingPage = "templates/</body>.html".toList ∧ ∃ after published,
      build (closingSite (Utf8.encode "<body>x</body>".toList)) ⟨[]⟩
        = (.ok { files := [closingPage] }, after) ∧
      after.entry? (liveName :: closingPage) = some (.file (Utf8.encode published)) ∧
      readSourcePath? published ≠ some (pageName closingPage) := by
  have raw : tokenize "<body>x</body>".toList = [.rawAt 0 "<body>x</body>".toList] := by cbv
  have compiled : (⟨closingSite (Utf8.encode "<body>x</body>".toList), [], defaultMaxDepth⟩ :
      Compiler).compileSource (pageName closingPage) "<body>x</body>".toList = .ok _ :=
    Compiler.compileSource_of_raw (by rw [raw]; decide)
  obtain ⟨after, built, published⟩ := closingSite_publishes rfl compiled
  have opens : "<body>x</body>".toList = bodyTag ++ ">x</body>".toList := by decide
  have cutThere : Text.cut bodyTag "<body>x</body>".toList = some ([], ">x</body>".toList) := by
    rw [opens]
    exact Text.cut_append (by decide) Text.firstBehind_nil
  have inName : bodyClose <:+: pageName closingPage := Text.includes_iff.1 (by decide)
  have notInFront : ¬ bodyClose <:+: [] := Text.not_infix (by decide)
  refine ⟨by decide, after, _, built, published, fun decoded => ?_⟩
  exact notInFront (((readSourcePath?_apply rfl cutThere).1 decoded).2 rfl inName)

end StaticSite.Project
