import Mathlib
import StaticSite.Proofs.Disk.Faraway
import StaticSite.Proofs.Template.Recursion

/-!
# Containment

What a page compiles to depends on nothing but the shape of the disk, the files of the project, and
those files that a path below the project leads to although its canonical path is too long to be
spelled.  No other content outside is read, whatever path a directive is written with and whatever
links there are.
-/

namespace StaticSite

/-! ## What a compiler sees -/

namespace Compiler

/-- Directives lead to the same targets with the same sources, and equally deep. -/
structure SeesSame (first second : Compiler) : Prop where
  depth : first.maxDepth = second.maxDepth
  targets : ∀ relative, first.locate relative = second.locate relative
  sources : ∀ relative target, first.locate relative = .ok target →
    first.disk.readSource target.place = second.disk.readSource target.place

variable {first second : Compiler}

theorem SeesSame.resolve (sees : first.SeesSame second) (levels : Nat) (frame : Frame) (index : Nat)
    (tokens : List Token) :
    first.resolve levels frame index tokens = second.resolve levels frame index tokens := by
  -- Both compilers are opened in each case, and what they ask of the disk is the same.
  refine (resolve_recursion
    (fun levels frame index tokens =>
      first.resolve levels frame index tokens = second.resolve levels frame index tokens)
    (fun levels file props index found tokens =>
      first.collectBlocks levels file props index found tokens
        = second.collectBlocks levels file props index found tokens)
    ?nil ?plain ?bottom ?inclusion ?layout ?noBlocks ?block ?between).1 levels frame index tokens
  case nil =>
    intro levels frame index
    rw [Compiler.resolve, Compiler.resolve]
  case plain =>
    intro levels frame index token rest plain ih
    rw [resolve_plain first plain, resolve_plain second plain, ih]
  case bottom =>
    intro frame index token rest names
    rw [resolve_bottom first names, resolve_bottom second names, sees.targets, sees.depth]
  case inclusion =>
    intro deeper frame index token rest kind inside behind
    rw [resolve_inclusion first kind, resolve_inclusion second kind, ← sees.targets]
    refine Except.bind_congr fun target located => ?_
    rw [sees.sources _ _ located]
    simp only [inside, behind]
  case layout =>
    intro deeper frame index token rest kind blocks inside behind
    rw [resolve_layout first kind, resolve_layout second kind, ← sees.targets]
    refine Except.bind_congr fun target located => ?_
    rw [blocks, sees.sources _ _ located]
    simp only [inside, behind]
  case noBlocks =>
    intro levels file props index found
    rw [collectBlocks, collectBlocks]
  case block =>
    intro levels file props index found token rest kind inside more
    rw [collectBlocks_block first kind, collectBlocks_block second kind, inside]
    simp only [more]
  case between =>
    intro levels file props index found token rest kind ih
    rw [collectBlocks_between first kind, collectBlocks_between second kind, ih]

/-- Compilers that see the same compile every page to the same. -/
theorem SeesSame.compileSource (sees : first.SeesSame second) (file source : Text) :
    first.compileSource file source = second.compileSource file source := by
  rw [Compiler.compileSource, Compiler.compileSource, sees.depth, sees.resolve]

end Compiler

/-! ## Files outside the project -/

namespace Disk

/-- The disks look alike, and a file under the project's root has the same content on both. -/
structure AgreesInside (first second : Disk) (project : Path) : Prop where
  alike : first.LooksLike second
  content : ∀ root place bytes, first.canonical project = .ok root → root <+: place →
    first.entry? place = some (.file bytes) → second.entry? place = some (.file bytes)

/-- Besides, a file has the same content on both that a path below the root leads to although the
path cannot be spelled, wherever the file is. -/
structure AgreesOnTargets (first second : Disk) (project : Path) : Prop
    extends first.AgreesInside second project where
  overlong : ∀ root path place bytes, first.canonical project = .ok root →
    first.Overlong root path → first.resolve path = .ok place →
    first.entry? place = some (.file bytes) → second.entry? place = some (.file bytes)

variable {first second : Disk} {project root path : Path} {relative : Text} {target : Target}

/-- Where all paths are short, targets outside the project are not read. -/
theorem AgreesInside.onTargets (agrees : first.AgreesInside second project)
    (short : first.HasShortPaths) : first.AgreesOnTargets second project where
  toAgreesInside := agrees
  overlong root path place bytes _ overlong leads _ := by
    have long := overlong.2
    rw [canonical_of_short short leads] at long
    cases long

/-- Writing to a file outside the project leaves everything inside as it is. -/
theorem agreesInside_put {old new : List UInt8} (stands : first.entry? path = some (.file old))
    (atRoot : first.canonical project = .ok root) (outside : ¬ root <+: path) :
    first.AgreesInside (first.put path (.file new)) project where
  alike other := by
    by_cases same : other = path
    · have nonempty : path ≠ [] := fun empty => outside (by
        rw [empty, entry?_nil] at stands
        cases stands)
      rw [same, stands, entry?_put_self nonempty]
      rfl
    · rw [entry?_put_of_ne same]
  content root' place bytes atRoot' inside found := by
    rw [atRoot] at atRoot'
    cases atRoot'
    have different : place ≠ path := fun same => outside (same ▸ inside)
    rw [entry?_put_of_ne different, found]

/-- A target reads the same on disks that agree on targets: a target that can be read is inside the
project or too long to be spelled, and what cannot be read on one disk cannot be read on the
other. -/
theorem AgreesOnTargets.readSource_eq (agrees : first.AgreesOnTargets second project)
    (atRoot : first.canonical project = .ok root)
    (located : first.contain? root relative = some target) :
    first.readSource target.place = second.readSource target.place := by
  rw [readSource, readSource, agrees.alike.readBytes_eq]
  intro place bytes read leads
  obtain ⟨names, _, _, _, leads', stands, again, inside | overlong⟩ := read_target located read
  · rw [again] at leads
    cases leads
    exact agrees.content root _ bytes atRoot (inside.1 ▸ inside.2.2) stands
  · rw [again] at leads
    cases leads
    exact agrees.overlong root _ _ bytes atRoot overlong.2 leads' stands

/-- On disks that agree on targets directives lead to the same sources. -/
theorem AgreesOnTargets.seesSame (agrees : first.AgreesOnTargets second project)
    (atRoot : first.canonical project = .ok root) (maxDepth : Nat) :
    Compiler.SeesSame { disk := first, root, maxDepth } { disk := second, root, maxDepth } := by
  refine ⟨rfl, fun relative => ?_, fun relative target located => ?_⟩
  · simp only [Compiler.locate, agrees.alike.contain?_eq]
  · exact agrees.readSource_eq atRoot ((Compiler.locate_eq_ok _).1 located)

end Disk

/-- Two disks that agree on the files of the project, and on those that are read under paths that
cannot be spelled, give the same HTML or the same error for every page. -/
theorem Compiler.compileSource_contained {first second : Disk} {project : Path}
    (agrees : first.AgreesOnTargets second project) (maxDepth : Nat) (file source : Text) :
    (Compiler.forProject first project maxDepth >>= (·.compileSource file source))
      = (Compiler.forProject second project maxDepth >>= (·.compileSource file source)) := by
  simp only [forProject, ← agrees.alike.canonical_eq, Except.bind_assoc, Except.ok_bind]
  refine Except.bind_congr fun root atRoot => ?_
  rw [Except.mapError_eq_ok] at atRoot
  exact (agrees.seesSame atRoot maxDepth).compileSource file source

/-- A project in a directory beside a file, with a link that leads out to that file. -/
def linkedOutSite (secret : List UInt8) : Disk :=
  ((Disk.empty.put ["secret".toList] (.file secret)).put ["site".toList] .directory).put
    ["site".toList, "leak".toList] (.link "../secret".toList)

theorem Compiler.linkedOutSite_compileSource_contained :
    (forProject (linkedOutSite [97]) ["site".toList] 64 >>=
        (·.compileSource "page".toList "\x7b\x7b include \"leak\" \x7d\x7d".toList))
      = (forProject (linkedOutSite [98]) ["site".toList] 64 >>=
        (·.compileSource "page".toList "\x7b\x7b include \"leak\" \x7d\x7d".toList)) := by
  have atRoot : (linkedOutSite [97]).canonical ["site".toList] = .ok ["site".toList] := by cbv
  have stands : Disk.entry? (linkedOutSite [97]) ["secret".toList] = some (.file [97]) := by decide
  have changed : (linkedOutSite [97]).put ["secret".toList] (.file [98]) = linkedOutSite [98] := rfl
  have agrees : (linkedOutSite [97]).AgreesInside (linkedOutSite [98]) ["site".toList] :=
    changed ▸ Disk.agreesInside_put stands atRoot (by decide)
  exact compileSource_contained (agrees.onTargets (by decide)) 64 _ _

/-! ## Files behind long paths -/

namespace Compiler

variable {deep : Path} {bytes : List UInt8}

/-- The compiler of a project with a link to a far directory. -/
def ofLinkedAway (deep : Path) (bytes : List UInt8) (maxDepth : Nat) : Compiler where
  disk := Disk.linkedAwaySite deep bytes
  root := ["site".toList]
  maxDepth

theorem forProject_linkedAwaySite (deep : Path) (bytes : List UInt8) (maxDepth : Nat) :
    forProject (Disk.linkedAwaySite deep bytes) ["site".toList] maxDepth
      = .ok (ofLinkedAway deep bytes maxDepth) := by
  rw [forProject, Disk.linkedAwaySite_canonical]
  rfl

/-- A path that cannot be spelled is taken as it is written. -/
theorem locate_linkedAwaySite (isFar : Disk.IsFar deep) (maxDepth : Nat) :
    (ofLinkedAway deep bytes maxDepth).locate "l/a".toList
      = .ok ⟨["site".toList, "l".toList, "a".toList], "l/a".toList⟩ := by
  have names : PathText.normalize? "l/a".toList = some ["l".toList, "a".toList] := by decide
  have overlong := (isFar.overlong bytes).2
  refine (locate_eq_ok _).2 ?_
  rw [Disk.contain?, names]
  simp only [ofLinkedAway, bind, Option.bind, List.cons_append, List.nil_append, overlong]
  rfl

theorem readSource_linkedAwaySite (isFar : Disk.IsFar deep) :
    (Disk.linkedAwaySite deep bytes).readSource ["site".toList, "l".toList, "a".toList]
      = .ok (Utf8.decodeLossy bytes) := by
  rw [Disk.readSource, isFar.readBytes_link]
  rfl

/-- A page that includes the far file. -/
def reachingSource : Text := "\x7b\x7b include \"l/a\" \x7d\x7d".toList

theorem tokenize_reachingSource :
    tokenize reachingSource = [⟨.inclusion, "\"l/a\"".toList, 0, 19⟩] := by cbv

theorem main_reachingSource : (Arguments.ofText "\"l/a\"".toList).main = "l/a".toList := by cbv

/-- The file is included although it is outside the project. -/
theorem compileSource_reachingSource (isFar : Disk.IsFar deep) (bytes : List UInt8) {c : Char}
    (decoded : Utf8.decodeLossy bytes = [c]) (raw : tokenize [c] = [.rawAt 0 [c]])
    (maxDepth : Nat) :
    (ofLinkedAway deep bytes (maxDepth + 1)).compileSource "p".toList reachingSource
      = .ok (includeMarker "p".toList 0 ++ [c] ++ includeEndMarker) := by
  have read : (ofLinkedAway deep bytes (maxDepth + 1)).disk.readSource
      ["site".toList, "l".toList, "a".toList] = .ok [c] := by
    rw [← decoded]
    exact readSource_linkedAwaySite isFar
  have isRaw : ¬ (Token.rawAt 0 [c]).NamesFile := by
    rintro (kind | kind) <;> cases kind
  rw [compileSource, tokenize_reachingSource]
  change Compiler.resolve _ (maxDepth + 1) _ _ _ = _
  rw [resolve_inclusion _ rfl, main_reachingSource,
    locate_linkedAwaySite isFar, Except.ok_bind, read, Except.mapError_ok, Except.ok_bind, raw,
    resolve_plain _ isRaw, resolve, Except.ok_bind, Except.ok_bind, resolve, Except.ok_bind]
  simp [plainHtml, Token.rawAt]

end Compiler

/-- The file behind the link is outside the project, and its path is too long to be spelled; yet its
text is in the page. -/
theorem Compiler.linkedAwaySite_escapes :
    (Disk.linkedAwaySite Disk.farDirectory [49]).AgreesInside
        (Disk.linkedAwaySite Disk.farDirectory [50]) ["site".toList] ∧
      (forProject (Disk.linkedAwaySite Disk.farDirectory [49]) ["site".toList] 1 >>=
          (·.compileSource "p".toList reachingSource))
        ≠ (forProject (Disk.linkedAwaySite Disk.farDirectory [50]) ["site".toList] 1 >>=
          (·.compileSource "p".toList reachingSource)) := by
  constructor
  · refine ⟨Disk.looksLike_linkedAwaySite _ _ _, fun root place bytes atRoot inside stands => ?_⟩
    rw [Disk.linkedAwaySite_canonical] at atRoot
    cases atRoot
    have noFile := Disk.isFar_farDirectory.holdsFile_project [49] inside
    rw [Disk.holdsFile, stands] at noFile
    cases noFile
  · have one := compileSource_reachingSource (c := '1') Disk.isFar_farDirectory [49]
      (by cbv) (by cbv) 0
    have two := compileSource_reachingSource (c := '2') Disk.isFar_farDirectory [50]
      (by cbv) (by cbv) 0
    rw [forProject_linkedAwaySite, forProject_linkedAwaySite, Except.ok_bind, Except.ok_bind]
    rw [one, two]
    decide

end StaticSite
