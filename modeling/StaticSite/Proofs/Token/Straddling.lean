import StaticSite.Proofs.Token.Recognition

/-!
# Directives across seams

A text may be put together from pieces.  Raw tokens of a source hold no directive, other than one
with an unknown word that is the whole token, so where such pieces are joined, a directive of the
whole is not inside any one of them.
-/

namespace StaticSite

/-! ## Closing braces -/

namespace DirectiveShape

variable {lexeme word arguments front behind : Text}

/-- Two closing braces stand at the end of a directive and nowhere else in it. -/
theorem eq_nil_of_closeBraces (shape : DirectiveShape lexeme word arguments)
    (split : lexeme = front ++ closeBraces ++ behind) : behind = [] := by
  obtain ⟨blanks, between, rfl, blank, _, wordChars, _, closing, _⟩ := shape
  have notBefore : '\x7d' ∉ openBraces ++ blanks ++ word := by
    simp only [List.mem_append, not_or]
    refine ⟨⟨by decide, fun isIn => ?_⟩, fun isIn => ?_⟩
    · exact absurd (blank _ isIn) (by decide)
    · exact absurd (wordChars _ isIn) (by decide)
  rw [List.append_assoc, List.append_assoc front] at split
  rcases List.append_eq_append_iff.1 split with ⟨tail, _, later⟩ | ⟨tail, before, later⟩
  · exact closing tail behind (by rw [later, List.append_assoc])
  · -- A brace in front of the word's end would have to stand among blanks and word characters.
    cases tail with
    | nil => exact closing [] behind (by simpa using later.symm)
    | cons c rest =>
      have isBrace : c = '\x7d' := (List.cons.inj later).1.symm
      exact absurd (before ▸ List.mem_append_right _ (isBrace ▸ List.mem_cons_self)) notBefore

theorem closeBraces_suffix (shape : DirectiveShape lexeme word arguments) :
    closeBraces <:+ lexeme := by
  obtain ⟨blanks, between, rfl, _⟩ := shape
  exact List.suffix_append _ _

theorem not_closeBraces_infix_arguments (shape : DirectiveShape lexeme word arguments) :
    ¬ closeBraces <:+: arguments := by
  rintro ⟨left, right, rfl⟩
  obtain ⟨blanks, between, _, _, _, _, _, closing, trims, _⟩ := shape
  obtain ⟨before, after, rfl, _⟩ := trims
  have none := closing (before ++ left) (right ++ after ++ closeBraces)
    (by simp only [List.append_assoc])
  simp [closeBraces] at none

end DirectiveShape

/-! ## Raw tokens -/

/-- No part of the text is a directive. -/
def DirectiveFree (text : Text) : Prop :=
  ∀ lexeme word arguments, DirectiveShape lexeme word arguments → ¬ lexeme <:+: text

theorem directiveFree_of_not_closeBraces {text : Text} (open' : ¬ closeBraces <:+: text) :
    DirectiveFree text :=
  fun _ _ _ shape within => open' (shape.closeBraces_suffix.isInfix.trans within)

/-- The text is a directive with a word that names none. -/
def IsUnknown (text : Text) : Prop :=
  ∃ word arguments, DirectiveShape text word arguments ∧ TokenKind.ofKeyword? word = none

section

variable {origin : Nat} {text before : Text} {found : DirectiveMatch} {token : Token}

theorem directiveFree_of_nextMatch?_none (none : nextMatch? text = none) : DirectiveFree text := by
  rintro lexeme word arguments shape ⟨front, behind, split⟩
  rw [List.append_assoc] at split
  exact not_begins_of_nextMatch? none front _ split.symm
    ⟨lexeme, word, arguments, shape, List.prefix_append _ _⟩

theorem directiveFree_before (next : nextMatch? text = some (before, found)) :
    DirectiveFree before := by
  rintro lexeme word arguments shape ⟨front, behind, rfl⟩
  obtain ⟨split, _, leftmost⟩ := leftmost_of_nextMatch? next
  have short := leftmost front (lexeme ++ (behind ++ found.lexeme ++ found.rest))
    (by rw [split]; simp only [List.append_assoc])
    ⟨lexeme, word, arguments, shape, List.prefix_append _ _⟩
  have positive := List.length_pos_iff.2 shape.ne_nil
  simp only [List.length_append] at short
  omega

theorem DirectiveMatch.isUnknown_of_raw (shape : DirectiveShape found.lexeme found.word
    found.arguments) (raw : (found.token origin).kind = .raw) :
    (found.token origin).content = found.lexeme ∧ IsUnknown found.lexeme := by
  cases named : TokenKind.ofKeyword? found.word with
  | none => exact ⟨(token_reads.unknown named).2, found.word, found.arguments, shape, named⟩
  | some kind =>
    -- The kinds that words name are those of directives.
    have isDirective : kind ∈ TokenKind.directives := List.mem_of_find?_eq_some named
    rw [(token_reads.known kind named).1] at raw
    rw [raw] at isDirective
    exact absurd isDirective (by decide)

/-- A raw token holds no directive, or it is one with an unknown word as a whole. -/
theorem directiveFree_or_isUnknown (isIn : token ∈ tokensFrom origin text)
    (raw : token.kind = .raw) : DirectiveFree token.content ∨ IsUnknown token.content := by
  fun_induction tokensFrom origin text with
  | case1 origin text none =>
    rw [(mem_rawTokens.1 isIn).2]
    exact .inl (directiveFree_of_nextMatch?_none none)
  | case2 origin text before found next head ih =>
    obtain ⟨_, shape, _⟩ := leftmost_of_nextMatch? next
    rcases mem_tokens_of_rest.1 isIn with ⟨_, rfl⟩ | rfl | isLater
    · exact .inl (directiveFree_before next)
    · obtain ⟨content, unknown⟩ := DirectiveMatch.isUnknown_of_raw shape raw
      exact .inr (content ▸ unknown)
    · exact ih isLater

/-- The argument text of a token has no two closing braces in it. -/
theorem not_closeBraces_infix_content (isIn : token ∈ tokensFrom origin text)
    (directive : token.isDirective = true) : ¬ closeBraces <:+: token.content := by
  fun_induction tokensFrom origin text with
  | case1 origin text none =>
    rw [(mem_rawTokens.1 isIn).2] at directive
    cases directive
  | case2 origin text before found next head ih =>
    obtain ⟨_, shape, _⟩ := leftmost_of_nextMatch? next
    rcases mem_tokens_of_rest.1 isIn with ⟨_, rfl⟩ | rfl | isLater
    · cases directive
    · cases named : TokenKind.ofKeyword? found.word with
      | none =>
        rw [Token.isDirective, (DirectiveMatch.token_reads.unknown named).1] at directive
        cases directive
      | some kind =>
        rw [(DirectiveMatch.token_reads.known kind named).2]
        split
        · exact fun within => absurd (List.infix_nil.1 within) (by decide)
        · exact shape.not_closeBraces_infix_arguments
    · exact ih isLater

/-- Without directives the tokens of a text hold all of it. -/
theorem flatMap_content_of_raw (raw : ∀ token ∈ tokensFrom origin text, token.kind = .raw) :
    (tokensFrom origin text).flatMap Token.content = text := by
  have flatMap_rawTokens : ∀ start html, (rawTokens start html).flatMap Token.content = html := by
    intro start html
    unfold rawTokens
    split
    · next empty => rw [empty]; rfl
    · simp [Token.rawAt]
  fun_induction tokensFrom origin text with
  | case1 origin text none => exact flatMap_rawTokens origin text
  | case2 origin text before found next head ih =>
    obtain ⟨split, shape, _⟩ := leftmost_of_nextMatch? next
    have isHead := raw head (mem_tokens_of_rest.2 (.inr (.inl rfl)))
    rw [List.flatMap_append, List.flatMap_cons, flatMap_rawTokens,
      (DirectiveMatch.isUnknown_of_raw shape isHead).1,
      ih fun token isLater => raw token (mem_tokens_of_rest.2 (.inr (.inr isLater))), split,
      List.append_assoc]

end

/-! ## Chosen directives -/

section

variable {text front whole behind before after inner shared lexeme word arguments other word'
  arguments' : Text} {chosen : Nat → Nat → Prop}

namespace DirectiveShape

/-- A directive that begins earlier than another one and reaches into it ends where that ends: it
has no closing braces in front of its end, and the other one none in front of its own. -/
theorem shared_eq (shape : DirectiveShape lexeme word arguments)
    (shape' : DirectiveShape (inner ++ shared) word' arguments') (nonempty : shared ≠ [])
    (same : shared ++ after = lexeme ++ behind) : shared = lexeme := by
  have closing := shape'.closeBraces_suffix
  by_cases long : closeBraces.length ≤ shared.length
  · obtain ⟨start, rfl⟩ := List.suffix_of_suffix_length_le closing (List.suffix_append _ _) long
    rcases List.prefix_or_prefix_of_prefix ⟨after, same⟩ (List.prefix_append lexeme behind) with
      ⟨rest, ends⟩ | ⟨rest, ends⟩
    · rw [← ends, shape.eq_nil_of_closeBraces ends.symm, List.append_nil]
    · obtain ⟨start', rfl⟩ := shape.closeBraces_suffix
      have split : inner ++ (start ++ closeBraces) = (inner ++ start') ++ closeBraces ++ rest := by
        rw [← ends]
        simp only [List.append_assoc]
      rw [← ends, shape'.eq_nil_of_closeBraces split, List.append_nil]
  · -- A single shared character would be an opening brace at the end.
    obtain ⟨c, rest, rfl⟩ := List.exists_cons_of_ne_nil nonempty
    have single : rest = [] := by
      rw [List.length_cons, show closeBraces.length = 2 from rfl] at long
      exact List.length_eq_zero_iff.1 (by omega)
    subst single
    obtain ⟨body, opening⟩ := shape.openBraces_prefix
    rw [← opening] at same
    have isOpen : c = '\x7b' := (List.cons.inj same).1
    obtain ⟨start, ends⟩ := closing
    have last := congrArg List.getLast? ends
    rw [List.getLast?_concat, List.getLast?_append,
      show closeBraces.getLast? = some '\x7d' from rfl, Option.some_or, isOpen] at last
    exact absurd last (by decide)

theorem eq_append_of_reaches (shape : DirectiveShape lexeme word arguments)
    (shape' : DirectiveShape other word' arguments')
    (same : before ++ (other ++ after) = front ++ (lexeme ++ behind))
    (earlier : Text.byteLength before < Text.byteLength front)
    (reaches : Text.byteLength front < Text.byteLength (before ++ other)) :
    ∃ inner, inner ≠ [] ∧ front = before ++ inner ∧ other = inner ++ lexeme := by
  obtain ⟨inner, rfl, within⟩ := Text.exists_middle_of_byteLength_le same (by omega)
  simp only [Text.byteLength_append] at earlier reaches
  obtain ⟨shared, rfl, ends⟩ := Text.exists_middle_of_byteLength_le within.symm (by omega)
  have nonempty : inner ≠ [] := by
    rintro rfl
    rw [Text.byteLength_nil] at earlier
    omega
  have nonempty' : shared ≠ [] := by
    rintro rfl
    rw [List.append_nil] at reaches
    omega
  exact ⟨inner, nonempty, rfl, by rw [shape.shared_eq shape' nonempty' ends.symm]⟩

end DirectiveShape

/-- Of two directives that end at the same place only the longer one can be chosen: nothing that
is chosen before it can end inside it, where no two braces close. -/
theorem not_chosen_of_longer (leftmost : Leftmost 0 text chosen)
    (split : text = front ++ (whole ++ behind)) (shape : DirectiveShape whole word arguments)
    (within : whole = inner ++ lexeme) (nonempty : inner ≠ []) (nonempty' : lexeme ≠ [])
    (stop : Nat) : ¬ chosen (Text.byteLength (front ++ inner)) stop := by
  intro isChosen
  obtain ⟨_, free⟩ := (leftmost _ _).1 isChosen
  have innerBytes := Text.byteLength_pos nonempty
  have lexemeBytes := Text.byteLength_pos nonempty'
  have wholeBytes : Text.byteLength whole = Text.byteLength inner + Text.byteLength lexeme := by
    rw [within, Text.byteLength_append]
  have frontBytes :
      Text.byteLength (front ++ inner) = Text.byteLength front + Text.byteLength inner :=
    Text.byteLength_append _ _
  -- The longer one is not chosen, for the shorter one begins inside it.
  have notChosen :
      ¬ chosen (Text.byteLength front) (Text.byteLength front + Text.byteLength whole) := by
    intro longer
    have ends := free _ _ longer (by omega)
    omega
  have blocked : ∃ start' stop', chosen start' stop' ∧ start' < Text.byteLength front ∧
      Text.byteLength front < stop' := by
    by_contra none
    refine notChosen ((leftmost _ _).2 ⟨⟨whole, word, arguments, .within front behind split
      (by omega) shape, rfl⟩, fun start' stop' isChosen' earlier => ?_⟩)
    by_contra reaches
    exact none ⟨start', stop', isChosen', earlier, by omega⟩
  -- What is chosen instead ends with the longer one, so that it holds the shorter one too.
  obtain ⟨start', stop', isChosen', earlier, reaches⟩ := blocked
  have ends := free _ _ isChosen' (by omega)
  obtain ⟨⟨other, _, _, ⟨before, after, split', starts, shape'⟩, stops⟩, _⟩ :=
    (leftmost _ _).1 isChosen'
  have otherBytes : stop' = Text.byteLength (before ++ other) := by
    rw [Text.byteLength_append]
    omega
  obtain ⟨spare, _, rfl, rfl⟩ := shape.eq_append_of_reaches shape' (split'.symm.trans split)
    (by omega) (by omega)
  simp only [Text.byteLength_append] at *
  omega

end

end StaticSite
