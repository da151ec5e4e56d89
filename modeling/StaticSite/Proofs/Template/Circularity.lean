import Mathlib
import StaticSite.Proofs.Template.Containment
import StaticSite.Proofs.Template.Descent
import StaticSite.Proofs.Text.Encoding

/-!
# Circular references

A directive is blamed for a circular reference at the end of a chain of directives that is as long
as the depth limit.  The chain leads from file to file, so where directives lead to fewer files than
that, one of them leads back to itself.  These are the files of the project, and files outside that
a path below the root leads to although it is too long to be spelled.
-/

namespace StaticSite

namespace Compiler

/-- A directive in a source leads to a file, which reads `text`.  The file is inside the project, or
it is read under a path that cannot be spelled. -/
structure Opens (compiler : Compiler) (source : Text) (directive : Token) (place : Path)
    (text : Text) : Prop where
  written : directive ∈ tokenize source
  namesFile : directive.NamesFile
  located : ∃ logical,
    compiler.locate (Arguments.ofText directive.content).main = .ok { place, logical }
  inside : ∃ goal, compiler.disk.resolve place = .ok goal ∧
    (place = goal ∧ compiler.root <+: goal ∨ compiler.disk.Overlong compiler.root place)
  read : compiler.disk.readSource place = .ok text

/-- `compiler.Chain source directives path`: the first directive stands in `source`, each one but
the last leads to a file that has the next one in it, and the last one names `path`, which does not
lead out of the project as far as it can be spelled. -/
inductive Chain (compiler : Compiler) : Text → List Token → Text → Prop where
  | last {source : Text} {directive : Token} {target : Target}
      (written : directive ∈ tokenize source) (namesFile : directive.NamesFile)
      (located : compiler.locate (Arguments.ofText directive.content).main = .ok target) :
      Chain compiler source [directive] (Arguments.ofText directive.content).main
  | hop {source text path : Text} {directive : Token} {place : Path} {more : List Token}
      (opens : compiler.Opens source directive place text)
      (chain : Chain compiler text more path) : Chain compiler source (directive :: more) path

/-- The regular files of the project that can be read. -/
def sourceFiles (compiler : Compiler) : List Path :=
  (compiler.disk.entries.rows.map (·.1)).filter fun place =>
    compiler.root.isPrefixOf place && compiler.disk.holdsFile place
      && (compiler.disk.readSource place).isOk

/-- A directive in the one file leads to the other. -/
def LeadsTo (compiler : Compiler) (place other : Path) : Prop :=
  ∃ source directive text, compiler.disk.readSource place = .ok source ∧
    compiler.Opens source directive other text

variable {compiler : Compiler} {levels deeper limit : Nat} {frame : Frame} {index : Nat}
  {tokens rest : List Token} {source text path : Text} {token : Token} {target : Target}

theorem opens_of_read (written : token ∈ tokenize source) (namesFile : token.NamesFile)
    (located : compiler.locate (Arguments.ofText token.content).main = .ok target)
    (read : compiler.disk.readSource target.place = .ok text) :
    compiler.Opens source token target.place text := by
  obtain ⟨bytes, isFile, _⟩ := Disk.readSource_eq_ok.1 read
  obtain ⟨_, goal, _, _, _, _, leads, inside⟩ :=
    Disk.read_target ((locate_eq_ok compiler).1 located) isFile
  refine ⟨written, namesFile, ⟨target.logical, located⟩, ⟨goal, leads, ?_⟩, read⟩
  exact inside.imp (fun ⟨same, _, inside⟩ => ⟨same, inside⟩) fun ⟨same, overlong⟩ =>
    same ▸ overlong

theorem locate_ne_circularReference (relative : Text) :
    compiler.locate relative ≠ .error (.circularReference path limit) := by
  unfold locate
  cases compiler.disk.contain? compiler.root relative <;> simp

/-- Where the depth is blamed at an include, it is blamed in the included file or behind it. -/
theorem inclusion_circularReference (kind : token.kind = .inclusion)
    (failed : compiler.resolve (deeper + 1) frame index (token :: rest)
      = .error (.circularReference path limit)) :
    (∃ target text, compiler.locate (Arguments.ofText token.content).main = .ok target ∧
      compiler.disk.readSource target.place = .ok text ∧
      compiler.resolve deeper (includedFrame frame target token) 0 (tokenize text)
        = .error (.circularReference path limit)) ∨
    compiler.resolve (deeper + 1) frame (index + 1) rest
      = .error (.circularReference path limit) := by
  rw [resolve_inclusion compiler kind] at failed
  rcases Except.bind_eq_error.1 failed with failed | ⟨target, located, failed⟩
  · exact absurd failed (locate_ne_circularReference _)
  rcases Except.bind_eq_error.1 failed with failed | ⟨text, read, failed⟩
  · obtain ⟨fault, _, missing⟩ := Except.mapError_eq_error.1 failed
    cases missing
  rcases Except.bind_eq_error.1 failed with failed | ⟨inner, _, failed⟩
  · exact .inl ⟨target, text, located, Except.mapError_eq_ok.1 read, failed⟩
  rcases Except.bind_eq_error.1 failed with failed | ⟨html, _, failed⟩
  · exact .inr failed
  · cases failed

/-- Where the depth is blamed at a layout, it is blamed in a block of its body, in the layout's
file or behind the body. -/
theorem layout_circularReference (kind : token.kind = .layout)
    (failed : compiler.resolve (deeper + 1) frame index (token :: rest)
      = .error (.circularReference path limit)) :
    compiler.collectBlocks (deeper + 1) frame.file (blockFrame frame token).props (index + 1)
        .empty (splitBalanced .layout .endLayout rest).1 = .error (.circularReference path limit) ∨
    (∃ target slots text, compiler.locate (Arguments.ofText token.content).main = .ok target ∧
      compiler.disk.readSource target.place = .ok text ∧
      compiler.resolve deeper (layoutFrame frame target token slots) 0 (tokenize text)
        = .error (.circularReference path limit)) ∨
    compiler.resolve (deeper + 1) frame
        (index + 1 + (splitBalanced .layout .endLayout rest).1.length + 1)
        (splitBalanced .layout .endLayout rest).2 = .error (.circularReference path limit) := by
  rw [resolve_layout compiler kind] at failed
  rcases Except.bind_eq_error.1 failed with failed | ⟨target, located, failed⟩
  · exact absurd failed (locate_ne_circularReference _)
  rcases Except.bind_eq_error.1 failed with failed | ⟨slots, _, failed⟩
  · exact .inl failed
  rcases Except.bind_eq_error.1 failed with failed | ⟨text, read, failed⟩
  · obtain ⟨fault, _, missing⟩ := Except.mapError_eq_error.1 failed
    cases missing
  rcases Except.bind_eq_error.1 failed with failed | ⟨inner, _, failed⟩
  · exact .inr (.inl ⟨target, slots, text, located, Except.mapError_eq_ok.1 read, failed⟩)
  rcases Except.bind_eq_error.1 failed with failed | ⟨html, _, failed⟩
  · exact .inr (.inr failed)
  · cases failed

/-- With `levels` levels left, the depth is blamed behind a chain of `levels` directives. -/
theorem chain_of_circularReference (compiler : Compiler) (levels : Nat) (frame : Frame)
    (index : Nat) (tokens : List Token) :
    ∀ source path limit, (∀ token ∈ tokens, token ∈ tokenize source) →
      compiler.resolve levels frame index tokens = .error (.circularReference path limit) →
      limit = compiler.maxDepth ∧
        ∃ directives, directives.length = levels + 1 ∧ compiler.Chain source directives path := by
  refine (resolve_recursion
    (fun levels frame index tokens => ∀ source path limit,
      (∀ token ∈ tokens, token ∈ tokenize source) →
      compiler.resolve levels frame index tokens = .error (.circularReference path limit) →
      limit = compiler.maxDepth ∧
        ∃ directives, directives.length = levels + 1 ∧ compiler.Chain source directives path)
    (fun levels file props index found tokens => ∀ source path limit,
      (∀ token ∈ tokens, token ∈ tokenize source) →
      compiler.collectBlocks levels file props index found tokens
        = .error (.circularReference path limit) →
      limit = compiler.maxDepth ∧
        ∃ directives, directives.length = levels + 1 ∧ compiler.Chain source directives path)
    ?nil ?plain ?bottom ?inclusion ?layout ?noBlocks ?block ?between).1 levels frame index tokens
  case nil =>
    intro levels frame index source path limit _ failed
    rw [resolve] at failed
    cases failed
  case plain =>
    intro levels frame index token rest plain ih source path limit written failed
    rw [resolve_plain compiler plain] at failed
    rcases Except.bind_eq_error.1 failed with failed | ⟨html, _, failed⟩
    · exact ih source path limit (fun other later => written other (.tail _ later)) failed
    · cases failed
  case bottom =>
    intro frame index token rest namesFile source path limit written failed
    rw [resolve_bottom compiler namesFile] at failed
    rcases Except.bind_eq_error.1 failed with failed | ⟨target, located, failed⟩
    · exact absurd failed (locate_ne_circularReference _)
    · cases failed
      exact ⟨rfl, [token], rfl, .last (written token List.mem_cons_self) namesFile located⟩
  case inclusion =>
    intro deeper frame index token rest kind inside behind source path limit written failed
    rcases inclusion_circularReference kind failed with
      ⟨target, text, located, read, failed⟩ | failed
    · -- The file is at fault: the chain begins with this directive and goes on in the file.
      obtain ⟨limited, directives, length, chain⟩ :=
        inside target text text path limit (fun _ => id) failed
      have opens := opens_of_read (written token List.mem_cons_self) (.inl kind) located read
      exact ⟨limited, token :: directives, by simp [length], .hop opens chain⟩
    · exact behind source path limit (fun other later => written other (.tail _ later)) failed
  case layout =>
    intro deeper frame index token rest kind blocks inside behind source path limit written failed
    have writtenRest : ∀ other ∈ rest, other ∈ tokenize source :=
      fun other later => written other (.tail _ later)
    rcases layout_circularReference kind failed with
      failed | ⟨target, slots, text, located, read, failed⟩ | failed
    · -- Blocks are part of the same source, so the chain is the one that a block has.
      exact blocks source path limit (fun other isIn => writtenRest other (mem_of_mem_body isIn))
        failed
    · obtain ⟨limited, directives, length, chain⟩ :=
        inside target slots text text path limit (fun _ => id) failed
      have opens := opens_of_read (written token List.mem_cons_self) (.inr kind) located read
      exact ⟨limited, token :: directives, by simp [length], .hop opens chain⟩
    · exact behind source path limit (fun other isIn => writtenRest other (mem_of_mem_behind isIn))
        failed
  case noBlocks =>
    intro levels file props index found source path limit _ failed
    rw [collectBlocks] at failed
    cases failed
  case block =>
    intro levels file props index found token rest kind inside more source path limit written failed
    have writtenRest : ∀ other ∈ rest, other ∈ tokenize source :=
      fun other later => written other (.tail _ later)
    rw [collectBlocks_block compiler kind] at failed
    rcases Except.bind_eq_error.1 failed with failed | ⟨html, _, failed⟩
    · exact inside source path limit (fun other isIn => writtenRest other (mem_of_mem_body isIn))
        failed
    · exact more html source path limit
        (fun other isIn => writtenRest other (mem_of_mem_behind isIn)) failed
  case between =>
    intro levels file props index found token rest kind ih source path limit written failed
    rw [collectBlocks_between compiler kind] at failed
    exact ih source path limit (fun other later => written other (.tail _ later)) failed

/-! ## Files that lead back to themselves -/

/-- Where all paths are short, directives lead to the files of the project only. -/
theorem Opens.mem_sourceFiles {place : Path} (opens : compiler.Opens source token place text)
    (short : compiler.disk.HasShortPaths) : place ∈ compiler.sourceFiles := by
  obtain ⟨bytes, isFile, _⟩ := Disk.readSource_eq_ok.1 opens.read
  obtain ⟨_, goal', leads', stands⟩ := Disk.find_eq_ok.1 (Disk.readBytes_eq_ok.1 isFile)
  obtain ⟨goal, leads, ⟨rfl, inside⟩ | overlong⟩ := opens.inside
  · rw [leads] at leads'
    cases leads'
    have nonempty : place ≠ [] := by
      rintro rfl
      cases stands
    have isRow : place ∈ compiler.disk.entries.rows.map (·.1) :=
      List.mem_map_of_mem (Disk.mem_rows_of_stands stands nonempty)
    refine List.mem_filter.2 ⟨isRow, ?_⟩
    simp [List.isPrefixOf_iff_prefix, inside, Disk.holdsFile, stands, opens.read, Except.isOk,
      Except.toBool]
  · have long := overlong.2
    rw [Disk.canonical_of_short short leads] at long
    cases long

/-- Every directive of a chain but the last leads to a file, and each file to the next. -/
theorem Chain.files {directives : List Token} (chain : compiler.Chain source directives path) :
    ∃ places : List Path, directives.length = places.length + 1 ∧
      (∀ place ∈ places, ∃ source directive text, compiler.Opens source directive place text) ∧
      places.IsChain compiler.LeadsTo ∧
      ∀ place ∈ places.head?, ∃ directive text, compiler.Opens source directive place text := by
  induction chain with
  | last _ _ _ => exact ⟨[], rfl, by simp, .nil, by simp⟩
  | @hop source text path directive place more opens chain ih =>
    obtain ⟨places, length, files, linked, first⟩ := ih
    refine ⟨place :: places, by simp [length], ?_, ?_, ?_⟩
    · intro other isIn
      rcases List.mem_cons.1 isIn with rfl | isIn
      · exact ⟨source, directive, text, opens⟩
      · exact files other isIn
    · refine List.isChain_cons.2 ⟨fun next isNext => ?_, linked⟩
      obtain ⟨directive, text', onward⟩ := first next isNext
      exact ⟨text, directive, text', opens.read, onward⟩
    · intro other isFirst
      cases isFirst
      exact ⟨directive, text, opens⟩

end Compiler

/-- A chain through more places than there are passes one of them twice. -/
theorem exists_transGen_self {α : Type} {leads : α → α → Prop} {places known : List α}
    (linked : places.IsChain leads) (isKnown : ∀ place ∈ places, place ∈ known)
    (fewer : known.length < places.length) :
    ∃ place ∈ known, Relation.TransGen leads place place := by
  have repeats : ¬ places.Nodup := by
    intro distinct
    have := (List.subperm_of_subset distinct isKnown).length_le
    omega
  obtain ⟨place, twice⟩ := List.exists_duplicate_iff_not_nodup.2 repeats
  have ordered : places.Pairwise (Relation.TransGen leads) :=
    (linked.imp fun _ _ => Relation.TransGen.single).pairwise
  have pair := ordered.sublist (List.duplicate_iff_sublist.1 twice)
  exact ⟨place, isKnown place twice.mem, List.rel_of_pairwise_cons pair List.mem_cons_self⟩

namespace Compiler

/-- Compiling ends and goes no deeper than the limit.  A circular reference is the end of a chain of
one directive more than the limit, and where directives lead to fewer files than the limit some file
leads back to itself.  Where all paths are short, these are files of the project. -/
theorem compileSource_circularity (compiler : Compiler) (file source : Text) :
    (∃ enough, ∀ steps, enough ≤ steps → ∃ depths,
      (compiler.descendSource steps file source).outcome? []
          = some (compiler.compileSource file source, depths) ∧
        ∀ depth ∈ depths, depth ≤ compiler.maxDepth) ∧
      ∀ path limit,
        compiler.compileSource file source = .error (.circularReference path limit) →
        limit = compiler.maxDepth ∧
        (∃ directives, directives.length = limit + 1 ∧ compiler.Chain source directives path) ∧
        (∀ known : List Path,
          (∀ source directive place text, compiler.Opens source directive place text →
            place ∈ known) → known.length < limit →
          ∃ place ∈ known, Relation.TransGen compiler.LeadsTo place place) ∧
        (compiler.disk.HasShortPaths → compiler.sourceFiles.length < limit →
          ∃ place ∈ compiler.sourceFiles, Relation.TransGen compiler.LeadsTo place place) := by
  obtain ⟨enough, ends⟩ := descendSource_ends compiler file source
  refine ⟨⟨enough, fun steps more => ends steps more [] (by simp)⟩, fun path limit failed => ?_⟩
  obtain ⟨rfl, directives, length, chain⟩ :=
    chain_of_circularReference compiler _ _ _ _ source path limit (fun _ => id) failed
  -- The chain opens as many files as the limit says, so among fewer of them one comes twice.
  obtain ⟨places, sum, opened, linked, _⟩ := chain.files
  have leadsBack : ∀ known : List Path,
      (∀ source directive place text, compiler.Opens source directive place text →
        place ∈ known) → known.length < compiler.maxDepth →
      ∃ place ∈ known, Relation.TransGen compiler.LeadsTo place place := by
    intro known isKnown fewer
    refine exists_transGen_self linked (fun place isIn => ?_) (by omega)
    obtain ⟨_, _, _, opens⟩ := opened place isIn
    exact isKnown _ _ _ _ opens
  exact ⟨rfl, ⟨directives, length, chain⟩, leadsBack, fun short =>
    leadsBack _ fun _ _ _ _ opens => opens.mem_sourceFiles short⟩

/-- A source that includes the file `a`. -/
def echoSource : Text := "\x7b\x7b include \"a\" \x7d\x7d".toList

/-- A site whose only file includes itself. -/
def echoSite : Compiler where
  disk := Disk.empty.put ["a".toList] (.file (Utf8.encode echoSource))
  root := []
  maxDepth := 2

theorem echoSite_circularity :
    echoSite.compileSource "p".toList echoSource = .error (.circularReference "a".toList 2) ∧
      (∃ directives, directives.length = 3 ∧ echoSite.Chain echoSource directives "a".toList) ∧
      ∃ place ∈ echoSite.sourceFiles, Relation.TransGen echoSite.LeadsTo place place := by
  have failed : echoSite.compileSource "p".toList echoSource
      = .error (.circularReference "a".toList 2) := by cbv
  have short : echoSite.disk.HasShortPaths := by decide
  have single : echoSite.sourceFiles.length < 2 := by cbv
  obtain ⟨_, chain, _, leadsBack⟩ :=
    (compileSource_circularity echoSite "p".toList echoSource).2 _ _ failed
  exact ⟨failed, chain, leadsBack short single⟩

/-- A source that includes a file that is not there. -/
def missingSource : Text := "\x7b\x7b include \"b\" \x7d\x7d".toList

/-- A path that leads nowhere counts as it is written. -/
theorem locate_linkedAwaySite_missing {deep : Path} (isFar : Disk.IsFar deep)
    (bytes : List UInt8) (maxDepth : Nat) :
    (ofLinkedAway deep bytes maxDepth).locate "b".toList
      = .ok ⟨["site".toList, "b".toList], "b".toList⟩ := by
  have names : PathText.normalize? "b".toList = some ["b".toList] := by decide
  obtain ⟨fault, lost⟩ : ∃ fault, (Disk.linkedAwaySite deep bytes).canonical
      ["site".toList, "b".toList] = .error fault := by
    cases spelled : (Disk.linkedAwaySite deep bytes).canonical ["site".toList, "b".toList] with
    | error fault => exact ⟨fault, rfl⟩
    | ok place =>
      have missing : Disk.entry? (Disk.linkedAwaySite deep bytes) ["site".toList, "b".toList]
          = none := isFar.entry?_missing (by decide) (by decide)
      have reaches : (Disk.linkedAwaySite deep bytes).Reaches ["site".toList] ["site".toList] :=
        ⟨⟨_, Disk.linkedAwaySite_isCanonical.leads⟩, Disk.linkedAwaySite_project⟩
      have noLink (target : Text) : Disk.entry? (Disk.linkedAwaySite deep bytes)
          (["site".toList] ++ ["b".toList]) ≠ some (.link target) := by
        rw [List.singleton_append, missing]
        nofun
      have nothing := reaches.follow_eq (by decide) noLink false
      rw [if_pos ⟨missing, rfl⟩] at nothing
      have followed := (Disk.resolve_eq_ok.1 (Disk.resolve_of_canonical spelled)).2
      cases nothing.symm.trans followed
  refine (locate_eq_ok _).2 ?_
  rw [Disk.contain?, names]
  simp only [ofLinkedAway, bind, Option.bind, List.cons_append, List.nil_append, lost]
  rfl

/-- The included file is outside the project, and what it includes is not there.  So the project has
no file at all, but a circular reference is reported at the limit of one. -/
theorem linkedAwaySite_no_circle :
    (ofLinkedAway Disk.farDirectory (Utf8.encode missingSource) 1).compileSource "p".toList
        reachingSource = .error (.circularReference "b".toList 1) ∧
      (ofLinkedAway Disk.farDirectory (Utf8.encode missingSource) 1).sourceFiles = [] := by
  have isFar := Disk.isFar_farDirectory
  have read : (ofLinkedAway Disk.farDirectory (Utf8.encode missingSource) 1).disk.readSource
      ["site".toList, "l".toList, "a".toList] = .ok missingSource :=
    (readSource_linkedAwaySite isFar).trans (congrArg _ (Utf8.decodeLossy_encode missingSource))
  have inner : tokenize missingSource = [⟨.inclusion, "\"b\"".toList, 0, 17⟩] := by cbv
  have main : (Arguments.ofText "\"b\"".toList).main = "b".toList := by cbv
  constructor
  · rw [compileSource, tokenize_reachingSource]
    change Compiler.resolve _ 1 _ _ _ = _
    rw [resolve_inclusion _ rfl, main_reachingSource, locate_linkedAwaySite isFar, Except.ok_bind,
      read, Except.mapError_ok, Except.ok_bind, inner, resolve_bottom _ (.inl rfl), main,
      locate_linkedAwaySite_missing isFar]
    rfl
  · refine List.filter_eq_nil_iff.2 fun place _ isFile => ?_
    rw [Bool.and_eq_true, Bool.and_eq_true, List.isPrefixOf_iff_prefix] at isFile
    obtain ⟨⟨inside, isFile⟩, _⟩ := isFile
    exact absurd isFile (Bool.eq_false_iff.1 (isFar.holdsFile_project _ inside))

end Compiler

end StaticSite
