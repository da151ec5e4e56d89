import StaticSite.Proofs.Text.Insertion
import StaticSite.Proofs.Token.Resuming

/-!
# Writing tokens

A source can be put together from raw HTML and directives.  Where no two pieces of raw HTML stand
next to each other, its tokens are these pieces again: what is written next to each other makes up
no other directive, and hides none.
-/

namespace StaticSite

/-- What a source is written from. -/
inductive SourcePiece where
  | raw (html : Text)
  | directive (kind : TokenKind) (content : Text)
  /-- A directive without content, its braces next to its word but for one space. -/
  | bare (kind : TokenKind)
  deriving DecidableEq, Repr

namespace SourcePiece

/-- The word of a directive. -/
def word (kind : TokenKind) : Text :=
  kind.keyword?.getD []

/-- The text of a piece. -/
def text : SourcePiece → Text
  | raw html => html
  | directive kind content =>
      openBraces ++ ' ' :: (word kind ++ ' ' :: (content ++ ' ' :: closeBraces))
  | bare kind => openBraces ++ ' ' :: (word kind ++ ' ' :: closeBraces)

/-- The kind of token that a piece is. -/
def kind : SourcePiece → TokenKind
  | raw _ => .raw
  | directive kind _ => kind
  | bare kind => kind

/-- The content of the token that a piece is. -/
def content : SourcePiece → Text
  | raw html => html
  | directive _ content => content
  | bare _ => []

/-- The token that a piece is where it begins at byte `start`. -/
def token (start : Nat) (piece : SourcePiece) : Token where
  kind := piece.kind
  content := piece.content
  start := start
  stop := start + Text.byteLength piece.text

/-- The text of pieces one behind the other. -/
def source (pieces : List SourcePiece) : Text :=
  pieces.flatMap text

/-- The tokens that pieces are one behind the other, from byte `start` on. -/
def tokens (start : Nat) : List SourcePiece → List Token
  | [] => []
  | piece :: rest => piece.token start :: tokens (start + Text.byteLength piece.text) rest

/-- A piece that can be written: raw HTML that opens no braces, or a directive with content on one
line that closes none and has no blank ends.  A closing directive has no content. -/
inductive WellFormed : SourcePiece → Prop where
  | raw {html : Text} (nonempty : html ≠ []) (unopened : ¬ openBraces <:+: html) :
      WellFormed (raw html)
  | directive {kind : TokenKind} {content : Text} (isDirective : kind ≠ .raw)
      (oneLine : '\n' ∉ content) (unclosed : ¬ closeBraces <:+: content)
      (firstVisible : ∀ c ∈ content.head?, Text.isBlank c = false)
      (lastVisible : ∀ c ∈ content.getLast?, Text.isBlank c = false)
      (noArguments : kind.takesArguments = false → content = []) :
      WellFormed (directive kind content)
  | bare {kind : TokenKind} (isDirective : kind ≠ .raw) : WellFormed (bare kind)

end SourcePiece

/-! ## Written directives -/

section

variable {word content : Text}

/-- A directive with one space on each side of its content. -/
theorem directiveShape_spaced (nonempty : word ≠ [])
    (wordChars : ∀ c ∈ word, Text.isWordChar c = true) (oneLine : '\n' ∉ content)
    (unclosed : ¬ closeBraces <:+: content)
    (firstVisible : ∀ c ∈ content.head?, Text.isBlank c = false)
    (lastVisible : ∀ c ∈ content.getLast?, Text.isBlank c = false) :
    DirectiveShape (openBraces ++ ' ' :: (word ++ ' ' :: (content ++ ' ' :: closeBraces))) word
      content := by
  have isBlank : ∀ c ∈ [' '], Text.isBlank c = true := List.all_eq_true.1 rfl
  have closing : Text.FirstBehind closeBraces (' ' :: (content ++ [' '])) := by
    rw [Text.firstBehind_iff (by decide), List.cons_append, List.append_assoc]
    intro within
    have apart : ' ' ∉ closeBraces := by decide
    rw [Text.infix_cons (by decide) apart] at within
    rcases (Text.infix_append_cons apart).1 within with inContent | inEnd
    · exact unclosed inContent
    · exact absurd inEnd (by decide)
  refine .braced [' '] (' ' :: (content ++ [' '])) (by simp) isBlank nonempty wordChars ?_ closing
    (.ends [' '] [' '] (by simp) isBlank isBlank firstVisible lastVisible) oneLine
  intro c isFirst
  cases isFirst
  decide

/-- A directive without content. -/
theorem directiveShape_bare (nonempty : word ≠ [])
    (wordChars : ∀ c ∈ word, Text.isWordChar c = true) :
    DirectiveShape (openBraces ++ ' ' :: (word ++ ' ' :: closeBraces)) word [] := by
  have isBlank : ∀ c ∈ [' '], Text.isBlank c = true := List.all_eq_true.1 rfl
  have closing : Text.FirstBehind closeBraces [' '] :=
    (Text.firstBehind_iff (by decide)).2 (by decide)
  refine .braced [' '] [' '] (by simp) isBlank nonempty wordChars ?_ closing
    (.ends [' '] [] rfl isBlank nofun nofun nofun) nofun
  intro c isFirst
  cases isFirst
  decide

end

namespace SourcePiece

variable {kind : TokenKind} {piece : SourcePiece} {pieces : List SourcePiece} {html rest : Text}
  {start : Nat}

theorem word_ne_nil (isDirective : kind ≠ .raw) : word kind ≠ [] := by
  cases kind <;> first | exact absurd rfl isDirective | decide

theorem isWordChar_of_mem_word (kind : TokenKind) : ∀ c ∈ word kind, Text.isWordChar c = true :=
  List.all_eq_true.1 (by cases kind <;> rfl)

theorem ofKeyword?_word (isDirective : kind ≠ .raw) :
    TokenKind.ofKeyword? (word kind) = some kind := by
  cases kind <;> first | exact absurd rfl isDirective | decide

/-- A piece is a directive, which is read as the token that the piece is. -/
theorem WellFormed.shape (wellFormed : piece.WellFormed) (notRaw : piece.kind ≠ .raw) :
    ∃ word arguments, DirectiveShape piece.text word arguments ∧ ∀ start rest,
      (DirectiveMatch.mk word arguments piece.text rest).token start = piece.token start := by
  cases wellFormed with
  | raw _ _ => exact absurd rfl notRaw
  | @directive kind content isDirective oneLine unclosed firstVisible lastVisible noArguments =>
    refine ⟨word kind, content, directiveShape_spaced (word_ne_nil isDirective)
      (isWordChar_of_mem_word kind) oneLine unclosed firstVisible lastVisible, fun start rest => ?_⟩
    simp only [DirectiveMatch.token, ofKeyword?_word isDirective, token, SourcePiece.kind,
      SourcePiece.content]
    cases takes : kind.takesArguments with
    | true => rfl
    | false => rw [noArguments takes]; rfl
  | @bare kind isDirective =>
    refine ⟨word kind, [], directiveShape_bare (word_ne_nil isDirective)
      (isWordChar_of_mem_word kind), fun start rest => ?_⟩
    simp only [DirectiveMatch.token, ofKeyword?_word isDirective, token, SourcePiece.kind,
      SourcePiece.content, ite_self]

/-- Raw HTML in front of a directive is passed, also where it ends in an opening brace. -/
theorem nextMatch?_raw {lexeme word arguments : Text} (unopened : ¬ openBraces <:+: html)
    (shape : DirectiveShape lexeme word arguments) (rest : Text) :
    nextMatch? (html ++ (lexeme ++ rest)) = some (html, { word, arguments, lexeme, rest }) := by
  obtain ⟨body, split⟩ := shape.openBraces_prefix.trans (List.prefix_append lexeme rest)
  have first : nextMatch? (lexeme ++ rest) = some ([], { word, arguments, lexeme, rest }) := by
    rw [← split]
    exact nextMatch?_of_ofBody? (DirectiveMatch.ofBody?_of_shape shape split)
  have seam : ¬ BeginsDirective ('\x7b' :: (lexeme ++ rest)) := by
    rw [← split]
    exact not_begins_of_brace body
  rw [nextMatch?_append_of_unopened unopened fun _ => seam, first, Option.map_some]
  simp only [List.append_nil]

theorem nextMatch?_unopened (unopened : ¬ openBraces <:+: html) : nextMatch? html = none := by
  refine nextMatch?_eq_none_iff.2 fun front behind split begins => unopened ?_
  exact begins.openBraces_prefix.isInfix.trans (split ▸ (List.suffix_append _ _).isInfix)

/-- Raw HTML and a directive behind it become their tokens, and scanning goes on behind them. -/
theorem tokensFrom_directive (wellFormed : piece.WellFormed) (isDirective : piece.kind ≠ .raw)
    (unopened : ¬ openBraces <:+: html) (start : Nat) (rest : Text) :
    tokensFrom start (html ++ (piece.text ++ rest))
      = rawTokens start html ++ piece.token (start + Text.byteLength html)
        :: tokensFrom (start + Text.byteLength html + Text.byteLength piece.text) rest := by
  obtain ⟨word, arguments, shape, same⟩ := wellFormed.shape isDirective
  rw [tokensFrom_of_some (nextMatch?_raw unopened shape rest), same]
  rfl

/-- From any byte on, pieces of which no two are raw HTML next to each other are read one by one. -/
theorem tokensFrom_source : ∀ pieces : List SourcePiece, (∀ piece ∈ pieces, piece.WellFormed) →
    pieces.IsChain (fun left right => left.kind = .raw → right.kind ≠ .raw) →
    ∀ start, tokensFrom start (source pieces) = tokens start pieces
  | [], _, _, start => tokensFrom_of_none rfl start
  | piece :: rest, wellFormed, apart, start => by
    have first := wellFormed piece List.mem_cons_self
    have others : ∀ piece ∈ rest, piece.WellFormed :=
      fun piece isIn => wellFormed piece (List.mem_cons_of_mem _ isIn)
    by_cases isRaw : piece.kind = .raw
    · cases first with
      | directive notRaw => exact absurd isRaw notRaw
      | bare notRaw => exact absurd isRaw notRaw
      | @raw html nonempty unopened =>
        -- Raw HTML is read together with the directive behind it, if there is one.
        match rest, apart with
        | [], _ =>
          show tokensFrom start (html ++ []) = [_]
          rw [List.append_nil, tokensFrom_of_none (nextMatch?_unopened unopened), rawTokens,
            if_neg nonempty]
          rfl
        | next :: more, apart =>
          obtain ⟨notRaw, apart⟩ := List.isChain_cons_cons.1 apart
          have later := tokensFrom_source more
            (fun piece isIn => others piece (List.mem_cons_of_mem _ isIn)) apart.tail
            (start + Text.byteLength html + Text.byteLength next.text)
          show tokensFrom start (html ++ (next.text ++ source more)) = _
          rw [tokensFrom_directive (others next List.mem_cons_self) (notRaw rfl) unopened, later,
            rawTokens, if_neg nonempty]
          rfl
    · have later := tokensFrom_source rest others apart.tail (start + Text.byteLength piece.text)
      have unopened : ¬ openBraces <:+: [] := by decide
      have here := tokensFrom_directive first isRaw unopened start (source rest)
      rw [Text.byteLength_nil, Nat.add_zero, later] at here
      exact here

end SourcePiece

open SourcePiece in
/-- The tokens of a source that is written from pieces are these pieces. -/
theorem tokenize_source (pieces : List SourcePiece)
    (wellFormed : ∀ piece ∈ pieces, piece.WellFormed)
    (apart : pieces.IsChain fun left right => left.kind = .raw → right.kind ≠ .raw) :
    tokenize (source pieces) = tokens 0 pieces :=
  tokensFrom_source pieces wellFormed apart 0

/-- Pieces whose braces touch. -/
def bracedPieces : List SourcePiece :=
  [.raw "a\x7b".toList, .directive .slot "\x7b\x7b b\x7d".toList, .raw "\x7d".toList,
    .bare .endBlock, .directive .endLayout []]

theorem bracedPieces_wellFormed : ∀ piece ∈ bracedPieces, piece.WellFormed := by
  simp only [bracedPieces, List.forall_mem_cons]
  refine ⟨.raw (by decide) (by decide),
    .directive (by decide) (by decide) (by decide) ?_ ?_ (by decide),
    .raw (by decide) (by decide), .bare (by decide),
    .directive (by decide) (by decide) (by decide) nofun nofun (by decide), nofun⟩
  · rintro _ ⟨⟩
    rfl
  · rintro _ ⟨⟩
    rfl

theorem tokenize_bracedPieces :
    (∀ piece ∈ bracedPieces, piece.WellFormed) ∧
      bracedPieces.IsChain (fun left right => left.kind = .raw → right.kind ≠ .raw) ∧
      tokenize ("a\x7b\x7b\x7b slot \x7b\x7b b\x7d \x7d\x7d\x7d".toList
          ++ "\x7b\x7b endblock \x7d\x7d\x7b\x7b endlayout  \x7d\x7d".toList)
        = [⟨.raw, "a\x7b".toList, 0, 2⟩, ⟨.slot, "\x7b\x7b b\x7d".toList, 2, 18⟩,
            ⟨.raw, "\x7d".toList, 18, 19⟩, ⟨.endBlock, [], 19, 33⟩, ⟨.endLayout, [], 33, 49⟩] := by
  have apart : bracedPieces.IsChain (fun left right => left.kind = .raw → right.kind ≠ .raw) := by
    decide
  exact ⟨bracedPieces_wellFormed, apart, tokenize_source bracedPieces bracedPieces_wellFormed apart⟩

end StaticSite
