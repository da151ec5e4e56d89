import StaticSite.Proofs.Template.Recursion
import StaticSite.Proofs.Token.Closing

/-!
# Spans of directives

Compiling goes along the tokens of a file by the spans of its layouts, and along the body of a
layout by the spans of its blocks.  Each span lies inside the tokens that it is taken from, and
reading goes on behind the token that opened it.
-/

namespace StaticSite

/-- The tokens of a range, which has to lie inside. -/
def slice? (tokens : List Token) (start stop : Nat) : Option (List Token) :=
  if start ≤ stop ∧ stop ≤ tokens.length then some (tokens.extract start stop) else none

/-- The span behind the opening token at `index` lies inside the tokens, and reading goes on behind
that token: with the body between `start` and `stop`, then with what is left from `resume` on. -/
structure SpanWithin (tokens : List Token) (index : Nat) (span : TokenSpan)
    (body behind : List Token) : Prop where
  start_eq : span.start = index + 1
  body_eq : slice? tokens span.start span.stop = some body
  behind_eq : slice? tokens span.resume tokens.length = some behind
  advances : index < span.resume

section

variable {opens closes : TokenKind} {tokens body behind : List Token} {index : Nat}
  {span : TokenSpan}

theorem slice?_eq_some {start stop : Nat} (ordered : start ≤ stop) (within : stop ≤ tokens.length) :
    slice? tokens start stop = some (tokens.extract start stop) :=
  if_pos ⟨ordered, within⟩

theorem slice?_length {start : Nat} (within : start ≤ tokens.length) :
    slice? tokens start tokens.length = some (tokens.drop start) := by
  rw [slice?_eq_some within (Nat.le_refl _), List.extract_eq_take_drop, ← List.length_drop,
    List.take_length]

/-- What the compiler splits off behind an opening token is said by the span of that token.  Where
anything is left behind it, reading goes on right behind the closing token. -/
theorem spanWithin_splitBalanced (distinct : opens ≠ closes) (inside : index < tokens.length) :
    SpanWithin tokens index (balancedSpan tokens (index + 1) opens closes)
        (splitBalanced opens closes (tokens.drop (index + 1))).1
        (splitBalanced opens closes (tokens.drop (index + 1))).2 ∧
      ((splitBalanced opens closes (tokens.drop (index + 1))).2 = [] ∨
        (balancedSpan tokens (index + 1) opens closes).resume
          = index + 1 + (splitBalanced opens closes (tokens.drop (index + 1))).1.length + 1) := by
  cases found : closingIndex? opens closes 1 (tokens.drop (index + 1)) with
  | none =>
    have isSplit : splitBalanced opens closes (tokens.drop (index + 1))
        = (tokens.drop (index + 1), []) := by
      rw [splitBalanced, found]
    have isSpan : balancedSpan tokens (index + 1) opens closes
        = ⟨index + 1, tokens.length, tokens.length⟩ := by
      rw [balancedSpan, found]
      dsimp only
      rw [Nat.max_eq_left inside]
    rw [isSplit, isSpan]
    refine ⟨⟨rfl, slice?_length inside, ?_, inside⟩, .inl rfl⟩
    rw [slice?_length (Nat.le_refl _), List.drop_length]
  | some between =>
    have less := (closesAt_of_closingIndex? distinct found).lt_length
    have isSplit : splitBalanced opens closes (tokens.drop (index + 1))
        = (tokens.extract (index + 1) (index + 1 + between),
          tokens.drop (index + 1 + between + 1)) := by
      rw [splitBalanced, found, List.extract_eq_take_drop, Nat.add_sub_cancel_left]
      dsimp only
      rw [List.drop_drop, Nat.add_assoc _ between]
    have isSpan : balancedSpan tokens (index + 1) opens closes
        = ⟨index + 1, index + 1 + between, index + 1 + between + 1⟩ := by
      rw [balancedSpan, found]
    rw [isSplit, isSpan]
    refine ⟨⟨rfl, slice?_eq_some (Nat.le_add_right _ _) (Nat.le_of_lt less), slice?_length less,
      show index < index + 1 + between + 1 by omega⟩, .inr ?_⟩
    rw [List.extract_eq_take_drop, List.length_take, List.length_drop]
    dsimp only
    omega

end

namespace Compiler

variable (compiler : Compiler) {levels deeper base index : Nat} {frame : Frame} {token : Token}
  {tokens : List Token} {file : Text} {props found : Bindings}

/-- At a layout, compiling goes on with the two ranges of the layout's span. -/
theorem resolve_layout_at (stands : tokens[index]? = some token) (kind : token.kind = .layout) :
    compiler.resolve (deeper + 1) frame (base + index) (tokens.drop index) = (do
      let target ← compiler.locate (Arguments.ofText token.content).main
      let slots ← compiler.collectBlocks (deeper + 1) frame.file (blockFrame frame token).props
        (base + (index + 1)) .empty (splitBalanced .layout .endLayout (tokens.drop (index + 1))).1
      let source ← (compiler.disk.readSource target.place).mapError
        (.missingLayout (Arguments.ofText token.content).main)
      let inner ← compiler.resolve deeper (layoutFrame frame target token slots) 0
        (tokenize source)
      let html ← compiler.resolve (deeper + 1) frame
        (base + (balancedSpan tokens (index + 1) .layout .endLayout).resume)
        (splitBalanced .layout .endLayout (tokens.drop (index + 1))).2
      .ok (inner ++ html)) := by
  obtain ⟨inside, rfl⟩ := List.getElem?_eq_some_iff.1 stands
  have distinct : TokenKind.layout ≠ .endLayout := by decide
  have resumes : compiler.resolve (deeper + 1) frame (base + index + 1
      + (splitBalanced .layout .endLayout (tokens.drop (index + 1))).1.length + 1)
        (splitBalanced .layout .endLayout (tokens.drop (index + 1))).2
      = compiler.resolve (deeper + 1) frame
        (base + (balancedSpan tokens (index + 1) .layout .endLayout).resume)
        (splitBalanced .layout .endLayout (tokens.drop (index + 1))).2 := by
    -- With nothing left the index no longer matters.
    rcases (spanWithin_splitBalanced distinct inside).2 with nothing | isResume
    · rw [nothing, resolve, resolve]
    · rw [isResume]
      simp only [Nat.add_assoc]
  rw [List.drop_eq_getElem_cons inside, resolve_layout compiler kind, resumes]
  rfl

/-- At a block, collecting goes on with the two ranges of the block's span. -/
theorem collectBlocks_block_at (stands : tokens[index]? = some token)
    (kind : token.kind = .block) :
    compiler.collectBlocks levels file props (base + index) found (tokens.drop index) = (do
      let html ← compiler.resolve levels { file, slots := .empty, props } (base + (index + 1))
        (splitBalanced .block .endBlock (tokens.drop (index + 1))).1
      compiler.collectBlocks levels file props
        (base + (balancedSpan tokens (index + 1) .block .endBlock).resume)
        (found.insert token.name html)
        (splitBalanced .block .endBlock (tokens.drop (index + 1))).2) := by
  obtain ⟨inside, rfl⟩ := List.getElem?_eq_some_iff.1 stands
  have distinct : TokenKind.block ≠ .endBlock := by decide
  rw [List.drop_eq_getElem_cons inside, collectBlocks_block compiler kind]
  refine bind_congr fun html => ?_
  rcases (spanWithin_splitBalanced distinct inside).2 with nothing | isResume
  · rw [nothing, collectBlocks, collectBlocks]
  · rw [isResume]
    simp only [Nat.add_assoc]

/-- The span behind an opening token ends at the one token that balances it, and the counter that
looks for it is never negative.  Compiling goes from the layout or block at an index to the two
ranges of its span, which lie inside the tokens, the second one behind that index. -/
theorem spans_balance_within :
    (∀ (tokens : List Token) (start : Nat) (opens closes : TokenKind), opens ≠ closes →
      (∀ span, Balances opens closes tokens start span ↔
        balancedSpan tokens start opens closes = span) ∧
      (∀ close close', ClosesAt opens closes tokens start close →
        ClosesAt opens closes tokens start close' → close = close') ∧
      (∀ front, front <+: tokens.extract start (balancedSpan tokens start opens closes).resume →
        0 ≤ openCount opens closes front) ∧
      ∀ front, front <+: tokens.extract start (balancedSpan tokens start opens closes).stop →
        1 ≤ openCount opens closes front ∧
        closingIndex? opens closes 1 (tokens.drop start)
          = (closingIndex? opens closes (openCount opens closes front).toNat
              (tokens.drop (start + front.length))).map (· + front.length)) ∧
    (∀ (tokens : List Token) (index : Nat) (token : Token), tokens[index]? = some token →
      token.kind = .layout → ∃ body behind,
        SpanWithin tokens index (balancedSpan tokens (index + 1) .layout .endLayout) body behind ∧
        ∀ (compiler : Compiler) (deeper : Nat) (frame : Frame) (base : Nat),
          compiler.resolve (deeper + 1) frame (base + index) (tokens.drop index) = (do
            let target ← compiler.locate (Arguments.ofText token.content).main
            let slots ← compiler.collectBlocks (deeper + 1) frame.file
              (blockFrame frame token).props (base + (index + 1)) .empty body
            let source ← (compiler.disk.readSource target.place).mapError
              (.missingLayout (Arguments.ofText token.content).main)
            let inner ← compiler.resolve deeper (layoutFrame frame target token slots) 0
              (tokenize source)
            let html ← compiler.resolve (deeper + 1) frame
              (base + (balancedSpan tokens (index + 1) .layout .endLayout).resume) behind
            .ok (inner ++ html))) ∧
    ∀ (tokens : List Token) (index : Nat) (token : Token), tokens[index]? = some token →
      token.kind = .block → ∃ body behind,
        SpanWithin tokens index (balancedSpan tokens (index + 1) .block .endBlock) body behind ∧
        ∀ (compiler : Compiler) (levels : Nat) (file : Text) (props : Bindings) (base : Nat)
          (found : Bindings),
          compiler.collectBlocks levels file props (base + index) found (tokens.drop index) = (do
            let html ← compiler.resolve levels { file, slots := .empty, props }
              (base + (index + 1)) body
            compiler.collectBlocks levels file props
              (base + (balancedSpan tokens (index + 1) .block .endBlock).resume)
              (found.insert token.name html) behind) := by
  refine ⟨?_, ?_, ?_⟩
  · intro tokens start opens closes distinct
    refine ⟨fun span => balances_iff distinct, fun close close' => ClosesAt.unique distinct,
      fun front => openCount_nonneg distinct, fun front inside => ?_⟩
    exact ⟨openCount_pos distinct inside, closingIndex?_inside distinct inside⟩
  · intro tokens index token stands kind
    have inside := (List.getElem?_eq_some_iff.1 stands).1
    exact ⟨_, _, (spanWithin_splitBalanced (by decide) inside).1,
      fun compiler deeper frame base => resolve_layout_at compiler stands kind⟩
  · intro tokens index token stands kind
    have inside := (List.getElem?_eq_some_iff.1 stands).1
    exact ⟨_, _, (spanWithin_splitBalanced (by decide) inside).1,
      fun compiler levels file props base found => collectBlocks_block_at compiler stands kind⟩

/-- A layout in the body of another one, and a block that is never closed. -/
def nestedSpansPage : Text :=
  ("\x7b\x7b layout \"a\" \x7d\x7d\x7b\x7b layout \"b\" \x7d\x7d\x7b\x7b endlayout \x7d\x7d"
    ++ "\x7b\x7b block \"c\" \x7d\x7dx\x7b\x7b endlayout \x7d\x7dz").toList

theorem nestedSpansPage_spans :
    Balances .layout .endLayout (tokenize nestedSpansPage) 1 ⟨1, 5, 6⟩ ∧
      (∃ body behind, SpanWithin (tokenize nestedSpansPage) 0 ⟨1, 5, 6⟩ body behind) ∧
      ∃ body behind, SpanWithin (tokenize nestedSpansPage) 3 ⟨4, 7, 7⟩ body behind := by
  have outer : balancedSpan (tokenize nestedSpansPage) 1 .layout .endLayout = ⟨1, 5, 6⟩ := by
    decide +kernel
  have inner : balancedSpan (tokenize nestedSpansPage) 4 .block .endBlock = ⟨4, 7, 7⟩ := by
    decide +kernel
  have isLayout : (tokenize nestedSpansPage)[0]? = some ⟨.layout, "\"a\"".toList, 0, 16⟩ := by
    decide +kernel
  have isBlock : (tokenize nestedSpansPage)[3]? = some ⟨.block, "\"c\"".toList, 47, 62⟩ := by
    decide +kernel
  obtain ⟨balances, layouts, blocks⟩ := spans_balance_within
  refine ⟨((balances _ 1 _ _ (by decide)).1 _).2 outer, ?_, ?_⟩
  · obtain ⟨body, behind, within, _⟩ := layouts _ _ _ isLayout rfl
    exact ⟨body, behind, outer ▸ within⟩
  · obtain ⟨body, behind, within, _⟩ := blocks _ _ _ isBlock rfl
    exact ⟨body, behind, inner ▸ within⟩

end Compiler

end StaticSite
