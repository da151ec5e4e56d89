import Mathlib
import StaticSite.Proofs.Arguments
import StaticSite.Proofs.Disk.Entries
import StaticSite.Proofs.Template.Circularity
import StaticSite.Proofs.Token.Straddling

/-!
# Seams in compiled pages

A compiled page is put together from raw tokens, properties and markers.  None of these pieces holds
a directive, apart from file names in markers, so what the compiled page holds of directives was put
together at a seam.  A compiled page without directives compiles to itself.
-/

namespace StaticSite

/-! ## Pieces -/

/-- What compiled pages are put together from. -/
inductive Piece where
  /-- A raw token. -/
  | raw (content : Text)
  /-- The value of a property. -/
  | value (text : Text)
  /-- The name of a file, in a marker. -/
  | name (file : Text)
  /-- Another part of a marker. -/
  | mark (text : Text)

namespace Piece

def text : Piece → Text
  | raw content => content
  | value text => text
  | name file => file
  | mark text => text

/-- The text that some pieces are joined to. -/
def joined (pieces : List Piece) : Text :=
  pieces.flatMap text

@[simp] theorem joined_nil : joined [] = [] := rfl

@[simp] theorem joined_cons (piece : Piece) (rest : List Piece) :
    joined (piece :: rest) = piece.text ++ joined rest := rfl

@[simp] theorem joined_append (front rear : List Piece) :
    joined (front ++ rear) = joined front ++ joined rear :=
  List.flatMap_append

/-- What is in front of the file's name in an include's marker. -/
def markStart : Text := "<!-- __TP_INC__ file=\"".toList

/-- What is behind the file's name in the marker of the directive at `index`. -/
def markIndex (index : Nat) : Text :=
  "\" token_index=\"".toList ++ Text.ofNat index ++ "\" -->".toList

/-- The pieces of an include's marker. -/
def marker (file : Text) (index : Nat) : List Piece :=
  [.mark markStart, .name file, .mark (markIndex index)]

theorem joined_marker (file : Text) (index : Nat) :
    joined (marker file index) = includeMarker file index := by
  have regroup : ∀ first second third last : Text,
      first ++ (file ++ ((second ++ third ++ last) ++ []))
        = first ++ file ++ second ++ third ++ last := by simp
  exact regroup _ _ _ _

theorem not_closeBraces_infix_markIndex (index : Nat) : ¬ closeBraces <:+: markIndex index := by
  intro within
  have isIn : '\x7d' ∈ markIndex index := within.subset List.mem_cons_self
  rcases List.mem_append.1 isIn with isIn | isIn
  · rcases List.mem_append.1 isIn with isIn | isIn
    · exact absurd isIn (by decide)
    · have isDigit : Char.isDigit '\x7d' = true :=
        Nat.isDigit_of_mem_toDigits (b := 10) (by decide) (by decide) isIn
      exact absurd isDigit (by decide)
  · exact absurd isIn (by decide)

/-- A part of joined pieces reaches over a seam between them, or is a part of one piece. -/
theorem across_or_within {pieces : List Piece} {before lexeme behind : Text}
    (split : joined pieces = before ++ (lexeme ++ behind)) (nonempty : lexeme ≠ []) :
    (∃ front rear, pieces = front ++ rear ∧
      Text.byteLength before < Text.byteLength (joined front) ∧
      Text.byteLength (joined front) < Text.byteLength (before ++ lexeme)) ∨
    ∃ front piece rear start stop, pieces = front ++ piece :: rear ∧
      before = joined front ++ start ∧ piece.text = start ++ lexeme ++ stop := by
  induction pieces generalizing before with
  | nil =>
    have isNil := (List.append_eq_nil_iff.1 split.symm).2
    exact absurd (List.append_eq_nil_iff.1 isNil).1 nonempty
  | cons piece rest ih =>
    rw [joined_cons] at split
    by_cases later : Text.byteLength piece.text ≤ Text.byteLength before
    · obtain ⟨start, rfl, restSplit⟩ := Text.exists_middle_of_byteLength_le split later
      rcases ih restSplit with ⟨front, rear, rfl, starts, ends⟩ |
        ⟨front, inner, rear, start, stop, rfl, rfl, within⟩
      · refine .inl ⟨piece :: front, rear, rfl, ?_, ?_⟩
        · simpa [Text.byteLength_append] using starts
        · simpa [Text.byteLength_append, Nat.add_assoc] using ends
      · exact .inr ⟨piece :: front, inner, rear, start, stop, rfl, by simp, within⟩
    · by_cases across : Text.byteLength piece.text < Text.byteLength (before ++ lexeme)
      · exact .inl ⟨[piece], rest, rfl, by simpa using Nat.not_le.1 later, by simpa using across⟩
      · rw [← List.append_assoc] at split
        obtain ⟨stop, within, _⟩ :=
          Text.exists_middle_of_byteLength_le split.symm (Nat.not_lt.1 across)
        exact .inr ⟨[], piece, rest, before, stop, rfl, rfl, within⟩

end Piece

namespace Token

/-- There is a seam between the pieces inside the token. -/
def CrossesSeam (token : Token) (pieces : List Piece) : Prop :=
  ∃ front rear, pieces = front ++ rear ∧
    token.start < Text.byteLength (Piece.joined front) ∧
    Text.byteLength (Piece.joined front) < token.stop

/-- The token stands inside the name of a file. -/
def InFileName (token : Token) (pieces : List Piece) : Prop :=
  ∃ front file rear, pieces = front ++ .name file :: rear ∧
    Text.byteLength (Piece.joined front) ≤ token.start ∧
    token.stop ≤ Text.byteLength (Piece.joined front) + Text.byteLength file

end Token

/-! ## Where pieces come from -/

namespace Compiler

/-- A page of this source uses a text: its own, or that of a file which a directive in a text that
it uses leads to. -/
inductive Uses (compiler : Compiler) (source : Text) : Text → Prop where
  | page : Uses compiler source source
  | opened {text next : Text} {directive : Token} {place : Path} (uses : Uses compiler source text)
      (opens : compiler.Opens text directive place next) : Uses compiler source next

end Compiler

/-- The piece stands, as a whole, in a text that the page uses, or in a marker. -/
inductive Piece.From (compiler : Compiler) (file source : Text) : Piece → Prop where
  | raw {text : Text} {token : Token} (uses : compiler.Uses source text)
      (isIn : token ∈ tokenize text) (isRaw : token.kind = .raw) :
      From compiler file source (.raw token.content)
  | value {text key value : Text} {token : Token} (uses : compiler.Uses source text)
      (isIn : token ∈ tokenize text) (names : token.NamesFile)
      (given : (key, value) ∈ (Arguments.ofText token.content).props.rows) :
      From compiler file source (.value value)
  | page : From compiler file source (.name file)
  | target {text : Text} {token : Token} {target : Target} (uses : compiler.Uses source text)
      (isIn : token ∈ tokenize text) (names : token.NamesFile)
      (located : compiler.locate (Arguments.ofText token.content).main = .ok target) :
      From compiler file source (.name target.logical)
  | markStart : From compiler file source (.mark markStart)
  | markIndex (index : Nat) : From compiler file source (.mark (markIndex index))
  | markEnd : From compiler file source (.mark includeEndMarker)

namespace Compiler

variable {compiler : Compiler} {file source html html' : Text}

/-- The text is joined from pieces of the page. -/
def Joins (compiler : Compiler) (file source html : Text) : Prop :=
  ∃ pieces, html = Piece.joined pieces ∧ ∀ piece ∈ pieces, piece.From compiler file source

theorem noRows {holds : Text × Text → Prop} : ∀ row ∈ Table.rows .empty, holds row :=
  nofun

theorem joins_nil : compiler.Joins file source [] :=
  ⟨[], rfl, nofun⟩

theorem joins_piece {piece : Piece} (isFrom : piece.From compiler file source) :
    compiler.Joins file source piece.text :=
  ⟨[piece], by simp, by simpa using isFrom⟩

theorem Joins.append (one : compiler.Joins file source html)
    (other : compiler.Joins file source html') : compiler.Joins file source (html ++ html') := by
  obtain ⟨front, rfl, fronts⟩ := one
  obtain ⟨rear, rfl, rears⟩ := other
  refine ⟨front ++ rear, by simp, fun piece isIn => ?_⟩
  rcases List.mem_append.1 isIn with isIn | isIn
  · exact fronts piece isIn
  · exact rears piece isIn

/-- What is bound around the file is joined from pieces of the page. -/
structure Joining (compiler : Compiler) (file source : Text) (frame : Frame) : Prop where
  name : Piece.From compiler file source (.name frame.file)
  slots : ∀ row ∈ frame.slots.rows, compiler.Joins file source row.2
  props : ∀ row ∈ frame.props.rows, Piece.From compiler file source (.value row.2)

/-- Some tokens of a text that the page uses. -/
def Reads (compiler : Compiler) (source : Text) (tokens : List Token) : Prop :=
  ∃ text, compiler.Uses source text ∧ ∀ token ∈ tokens, token ∈ tokenize text

section

variable {frame : Frame} {token : Token} {rest : List Token} {index : Nat}

theorem joins_marker (isFrom : Piece.From compiler file source (.name html)) :
    compiler.Joins file source (includeMarker html index) := by
  refine ⟨Piece.marker html index, (Piece.joined_marker html index).symm, fun piece isIn => ?_⟩
  simp only [Piece.marker, List.mem_cons, List.not_mem_nil, or_false] at isIn
  rcases isIn with rfl | rfl | rfl
  · exact .markStart
  · exact isFrom
  · exact .markIndex index

/-- The properties that a directive hands down were given before or are given by it. -/
theorem Joining.overlay (joining : compiler.Joining file source frame)
    (reads : compiler.Reads source (token :: rest)) (names : token.NamesFile) :
    ∀ row ∈ (frame.props.overlay (Arguments.ofText token.content).props).rows,
      Piece.From compiler file source (.value row.2) := by
  intro row isRow
  obtain ⟨text, uses, within⟩ := reads
  rcases Table.mem_rows_of_overlay isRow with given | inherited
  · exact .value uses (within token List.mem_cons_self) names given
  · exact joining.props row inherited

theorem Joining.plainHtml (joining : compiler.Joining file source frame)
    (reads : compiler.Reads source (token :: rest)) :
    compiler.Joins file source (plainHtml frame token) := by
  unfold Compiler.plainHtml
  cases kind : token.kind with
  | raw =>
    obtain ⟨text, uses, within⟩ := reads
    exact joins_piece (.raw uses (within token List.mem_cons_self) kind)
  | slot =>
    cases found : frame.slots.get? token.name with
    | none => exact joins_nil
    | some html => exact joining.slots _ (Table.mem_rows_of_get? found)
  | prop =>
    cases found : frame.props.get? token.name with
    | none => exact joins_nil
    | some value => exact joins_piece (joining.props _ (Table.mem_rows_of_get? found))
  | _ => exact joins_nil

theorem Reads.mono {tokens part : List Token} (reads : compiler.Reads source tokens)
    (within : ∀ token ∈ part, token ∈ tokens) : compiler.Reads source part := by
  obtain ⟨text, uses, isIn⟩ := reads
  exact ⟨text, uses, fun token isPart => isIn token (within token isPart)⟩

theorem reads_of_uses {text : Text} (uses : compiler.Uses source text) :
    compiler.Reads source (tokenize text) :=
  ⟨text, uses, fun _ isIn => isIn⟩

theorem Reads.tail (reads : compiler.Reads source (token :: rest)) : compiler.Reads source rest :=
  reads.mono fun _ => List.mem_cons_of_mem _

theorem Reads.inside (reads : compiler.Reads source (token :: rest)) {opens closes : TokenKind} :
    compiler.Reads source (splitBalanced opens closes rest).1 :=
  reads.tail.mono fun _ => mem_of_mem_body

theorem Reads.behind (reads : compiler.Reads source (token :: rest)) {opens closes : TokenKind} :
    compiler.Reads source (splitBalanced opens closes rest).2 :=
  reads.tail.mono fun _ => mem_of_mem_behind

/-- The file that a directive leads to is known by name and read. -/
theorem Reads.target {target : Target} {text : Text} (file : Text)
    (reads : compiler.Reads source (token :: rest)) (names : token.NamesFile)
    (located : compiler.locate (Arguments.ofText token.content).main = .ok target)
    (read : compiler.disk.readSource target.place = .ok text) :
    Piece.From compiler file source (.name target.logical) ∧
      compiler.Reads source (tokenize text) := by
  obtain ⟨outer, uses, within⟩ := reads
  have isIn := within token List.mem_cons_self
  exact ⟨.target uses isIn names located,
    reads_of_uses (.opened uses (opens_of_read isIn names located read))⟩

end

/-! ## Compiling joins pieces -/

/-- Whatever compiles in frames of the page is joined from pieces of the page. -/
theorem joins_of_resolve (levels : Nat) (frame : Frame) (index : Nat) (tokens : List Token) :
    compiler.Joining file source frame → compiler.Reads source tokens →
      ∀ html, compiler.resolve levels frame index tokens = .ok html →
        compiler.Joins file source html := by
  refine (resolve_recursion
    (fun levels frame index tokens =>
      compiler.Joining file source frame → compiler.Reads source tokens →
        ∀ html, compiler.resolve levels frame index tokens = .ok html →
          compiler.Joins file source html)
    (fun levels name props index found tokens =>
      compiler.Joining file source ⟨name, found, props⟩ → compiler.Reads source tokens →
        ∀ blocks, compiler.collectBlocks levels name props index found tokens = .ok blocks →
          ∀ row ∈ blocks.rows, compiler.Joins file source row.2)
    ?nil ?plain ?bottom ?inclusion ?layout ?noBlocks ?block ?between).1 levels frame index tokens
  case nil =>
    intro levels frame index _ _ html compiled
    rw [resolve] at compiled
    cases compiled
    exact joins_nil
  case plain =>
    intro levels frame index token rest plain ih joining reads html compiled
    obtain ⟨behind, restCompiled, rfl⟩ := (resolve_plain_eq_ok compiler plain).1 compiled
    exact (joining.plainHtml reads).append (ih joining reads.tail behind restCompiled)
  case bottom =>
    intro frame index token rest names _ _ html compiled
    exact absurd compiled (resolve_bottom_ne_ok compiler names)
  case inclusion =>
    intro deeper frame index token rest kind inside behind joining reads html compiled
    obtain ⟨target, text, inner, more, located, read, innerCompiled, restCompiled, rfl⟩ :=
      (resolve_inclusion_eq_ok compiler kind).1 compiled
    obtain ⟨name, innerReads⟩ := reads.target file (.inl kind) located read
    -- The included file sees the slots around it and the properties overlaid.
    have innerJoining : compiler.Joining file source (includedFrame frame target token) :=
      ⟨name, joining.slots, joining.overlay reads (.inl kind)⟩
    have innerJoins := inside target text innerJoining innerReads inner innerCompiled
    have restJoins := behind joining reads.tail more restCompiled
    exact (((joins_marker joining.name).append innerJoins).append
      (joins_piece .markEnd)).append restJoins
  case layout =>
    intro deeper frame index token rest kind blocks inside behind joining reads html compiled
    obtain ⟨target, slots, text, inner, more, located, collected, read, innerCompiled,
      restCompiled, rfl⟩ := (resolve_layout_eq_ok compiler kind).1 compiled
    have props := joining.overlay reads (.inr kind)
    obtain ⟨name, innerReads⟩ := reads.target file (.inr kind) located read
    have slotsJoin := blocks ⟨joining.name, noRows, props⟩ reads.inside slots collected
    have innerJoins := inside target slots text ⟨name, slotsJoin, props⟩ innerReads inner
      innerCompiled
    exact innerJoins.append (behind joining reads.behind more restCompiled)
  case noBlocks =>
    intro levels name props index found joining _ blocks collected
    rw [collectBlocks] at collected
    cases collected
    exact joining.slots
  case block =>
    intro levels name props index found token rest kind inside more joining reads blocks collected
    obtain ⟨html, compiled, collected⟩ := (collectBlocks_block_eq_ok compiler kind).1 collected
    have joins := inside ⟨joining.name, noRows, joining.props⟩ reads.inside html compiled
    refine more html ⟨joining.name, fun row isRow => ?_, joining.props⟩ reads.behind blocks
      collected
    rcases Table.mem_rows_of_insert isRow with rfl | isRow
    · exact joins
    · exact joining.slots row isRow
  case between =>
    intro levels name props index found token rest kind ih joining reads blocks collected
    rw [collectBlocks_between compiler kind] at collected
    exact ih joining reads.tail blocks collected

theorem joins_of_compileSource (compiled : compiler.compileSource file source = .ok html) :
    compiler.Joins file source html :=
  joins_of_resolve _ _ _ _ ⟨.page, noRows, noRows⟩
    (reads_of_uses .page) html compiled

end Compiler

/-! ## Pieces hold no directives -/

namespace Piece

variable {compiler : Compiler} {file source : Text} {piece : Piece}

/-- Apart from file names, a piece is free of directives or an unknown one as a whole. -/
theorem From.directiveFree_or_isUnknown (isFrom : piece.From compiler file source)
    (notName : ∀ name, piece ≠ .name name) : DirectiveFree piece.text ∨ IsUnknown piece.text := by
  cases isFrom with
  | raw _ isIn isRaw => exact StaticSite.directiveFree_or_isUnknown isIn isRaw
  | value _ isIn names given =>
    have directive : Token.isDirective _ = true := bne_iff_ne.2 fun isRaw => by
      rcases names with kind | kind <;> rw [kind] at isRaw <;> cases isRaw
    exact .inl (directiveFree_of_not_closeBraces fun within =>
      not_closeBraces_infix_content isIn directive
        (within.trans (Arguments.infix_of_mem_props given)))
  | page => exact absurd rfl (notName _)
  | target => exact absurd rfl (notName _)
  | markStart => exact .inl (directiveFree_of_not_closeBraces (by decide))
  | markIndex index =>
    exact .inl (directiveFree_of_not_closeBraces (not_closeBraces_infix_markIndex index))
  | markEnd => exact .inl (directiveFree_of_not_closeBraces (by decide))

/-- A directive among the tokens of joined pieces was put together at a seam, or is in the name of a
file. -/
theorem crossesSeam_or_inFileName {pieces : List Piece}
    (isFrom : ∀ piece ∈ pieces, piece.From compiler file source) {token : Token}
    (isIn : token ∈ tokenize (joined pieces)) (directive : token.isDirective = true) :
    token.CrossesSeam pieces ∨ token.InFileName pieces := by
  have recognises : Recognises 0 (joined pieces) (tokenize (joined pieces)) :=
    recognises_tokensFrom 0 _
  have isMatch := recognises.directives token isIn directive
  obtain ⟨lexeme, word, arguments, ⟨before, behind, split, starts, shape⟩, stops⟩ := isMatch
  rw [Nat.zero_add] at starts
  have stopBytes : Text.byteLength (before ++ lexeme) = token.stop := by
    rw [Text.byteLength_append]
    omega
  rcases across_or_within split shape.ne_nil with ⟨front, rear, same, reaches, ends⟩ |
    ⟨front, piece, rear, start, stop, same, rfl, within⟩
  · exact .inl ⟨front, rear, same, by omega, by omega⟩
  · -- Within one piece: the name of a file may hold anything, the others hold no known directive.
    by_cases isName : ∃ name, piece = .name name
    · obtain ⟨name, rfl⟩ := isName
      have length := congrArg Text.byteLength within
      simp only [text, Text.byteLength_append] at length starts stopBytes
      exact .inr ⟨front, name, rear, same, by omega, by omega⟩
    · have standsIn : piece ∈ pieces := same ▸ List.mem_append_right _ List.mem_cons_self
      have infixOf : lexeme <:+: piece.text := ⟨start, stop, within.symm⟩
      rcases (isFrom piece standsIn).directiveFree_or_isUnknown fun name isName' =>
        isName ⟨name, isName'⟩ with free | ⟨unknownWord, unknownArguments, whole, unknown⟩
      · exact absurd infixOf (free lexeme word arguments shape)
      · -- Two closing braces are at the end of the piece only, so this is where the token ends.
        have atEnd : stop = [] := by
          obtain ⟨inner, closing⟩ := shape.closeBraces_suffix
          have lastBraces : piece.text = start ++ inner ++ closeBraces ++ stop := by
            rw [within, ← closing]
            simp only [List.append_assoc]
          exact whole.eq_nil_of_closeBraces lastBraces
        rw [atEnd, List.append_nil] at within
        by_cases atStart : start = []
        · -- The token is the whole unknown directive, which is raw.
          rw [atStart, List.nil_append] at within
          rw [within] at whole
          obtain ⟨_, sameWord, _, _⟩ := shape.unique whole (rfl : lexeme ++ [] = lexeme ++ [])
          have reads := recognises.reads token isIn lexeme word arguments
            (.within _ behind split (by omega) shape) stops
          rw [Token.isDirective, (reads.unknown (sameWord ▸ unknown)).1] at directive
          cases directive
        · -- A token that ends with the piece and begins later would have been left out for the
          -- whole one.
          have longer : joined pieces = joined front ++ (piece.text ++ joined rear) := by
            rw [same, joined_append, joined_cons]
          refine absurd ⟨token, isIn, ⟨lexeme, word, arguments, .within _ behind split (by omega)
            shape, stops⟩, starts, rfl⟩ (not_chosen_of_longer recognises.leftmost longer whole
            within atStart shape.ne_nil token.stop)

end Piece

/-! ## Compiled pages -/

namespace Compiler

variable {compiler : Compiler} {file source html : Text}

theorem resolve_of_raw {levels : Nat} {frame : Frame} {index : Nat} {tokens : List Token}
    (raw : ∀ token ∈ tokens, token.kind = .raw) :
    compiler.resolve levels frame index tokens = .ok (tokens.flatMap Token.content) := by
  induction tokens generalizing index with
  | nil => rw [resolve, List.flatMap_nil]
  | cons token rest ih =>
    have isRaw := raw token List.mem_cons_self
    have plain : ¬ token.NamesFile := by simp [Token.NamesFile, isRaw]
    rw [resolve_plain compiler plain, ih fun later isIn => raw later (List.mem_cons_of_mem _ isIn),
      plainHtml, isRaw]
    rfl

/-- A text without directives compiles to itself. -/
theorem compileSource_of_raw (raw : ∀ token ∈ tokenize html, token.isDirective = false) :
    compiler.compileSource file html = .ok html := by
  have allRaw : ∀ token ∈ tokenize html, token.kind = .raw := fun token isIn =>
    bne_eq_false_iff_eq.1 (raw token isIn)
  have contents : (tokenize html).flatMap Token.content = html := flatMap_content_of_raw allRaw
  rw [compileSource, resolve_of_raw allRaw, contents]

/-- A compiled page is joined from whole raw tokens and properties of the texts that it uses, and
from markers.  A directive that it holds reaches over a seam between these pieces, unless it is in
the name of a file; without one the page compiles to itself. -/
theorem compileSource_directives_at_seams
    (compiled : compiler.compileSource file source = .ok html) :
    (∃ pieces, html = Piece.joined pieces ∧
      (∀ piece ∈ pieces, piece.From compiler file source) ∧
      ∀ token ∈ tokenize html, token.isDirective = true →
        token.CrossesSeam pieces ∨ token.InFileName pieces) ∧
    ((∀ token ∈ tokenize html, token.isDirective = false) →
      ∀ (other : Compiler) (name : Text), other.compileSource name html = .ok html) := by
  obtain ⟨pieces, rfl, isFrom⟩ := joins_of_compileSource compiled
  refine ⟨⟨pieces, rfl, isFrom, fun token isIn directive => ?_⟩, fun raw other name => ?_⟩
  · exact Piece.crossesSeam_or_inFileName isFrom isIn directive
  · exact compileSource_of_raw raw

/-- The compiler of an empty project. -/
def bareCompiler : Compiler where
  disk := .empty
  root := []
  maxDepth := 64

/-- A slot without a name. -/
def slotSource : Text := "\x7b\x7b slot \x7d\x7d".toList

/-- A slot whose neighbours make another one when it is gone. -/
def closingSource : Text := '\x7b' :: slotSource ++ "\x7b slot \x7d\x7d".toList

/-- The token of the slot. -/
def slotToken : Token where
  kind := .slot
  content := []
  start := 0
  stop := 10

theorem mem_tokenize_slotSource : slotToken ∈ tokenize slotSource := by
  have tokens : tokenize slotSource = [slotToken] := by cbv
  rw [tokens]
  exact List.mem_singleton_self _

theorem closingSource_directives_at_seams :
    bareCompiler.compileSource "p".toList closingSource = .ok slotSource ∧
      ∃ pieces, slotSource = Piece.joined pieces ∧
        (∀ piece ∈ pieces, piece.From bareCompiler "p".toList closingSource) ∧
        (slotToken.CrossesSeam pieces ∨ slotToken.InFileName pieces) := by
  have compiled : bareCompiler.compileSource "p".toList closingSource = .ok slotSource := by cbv
  obtain ⟨⟨pieces, joins, isFrom, atSeam⟩, _⟩ := compileSource_directives_at_seams compiled
  exact ⟨compiled, pieces, joins, isFrom, atSeam _ mem_tokenize_slotSource rfl⟩

theorem closingSource_compiles_to_directive : ∃ html,
    bareCompiler.compileSource "p".toList closingSource = .ok html ∧
      (∃ token ∈ tokenize html, token.isDirective = true) ∧
      bareCompiler.compileSource "p".toList html = .ok [] ∧ html ≠ [] :=
  ⟨slotSource, by cbv, ⟨slotToken, mem_tokenize_slotSource, rfl⟩, by cbv, by decide⟩

end Compiler

end StaticSite
