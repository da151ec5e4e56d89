import Mathlib.Data.List.Chain
import StaticSite.Proofs.Token.Shape

/-!
# The directives among the tokens

Directives of a source may overlap.  Going from left to right decides which of them count, and the
tokens of directive shape are exactly these.  The raw tokens between them neither hold the beginning
of a directive nor stand next to each other.
-/

namespace StaticSite

/-! ## Directives in a text -/

/-- A directive stands at byte `start` of a text whose first byte is byte `origin`. -/
inductive DirectiveAt (origin : Nat) (text : Text) (start : Nat) (lexeme word arguments : Text) :
    Prop where
  | within (before behind : Text) (split : text = before ++ (lexeme ++ behind))
      (starts : start = origin + Text.byteLength before)
      (shape : DirectiveShape lexeme word arguments)

/-- A directive stands from byte `start` to byte `stop`. -/
def DirectiveSpan (origin : Nat) (text : Text) (start stop : Nat) : Prop :=
  ∃ lexeme word arguments, DirectiveAt origin text start lexeme word arguments ∧
    stop = start + Text.byteLength lexeme

/-- A directive is chosen unless one that is chosen before it reaches into it. -/
def Leftmost (origin : Nat) (text : Text) (chosen : Nat → Nat → Prop) : Prop :=
  ∀ start stop, chosen start stop ↔ DirectiveSpan origin text start stop ∧
    ∀ start' stop', chosen start' stop' → start' < start → stop' ≤ start

section

variable {origin start stop : Nat} {text front behind lexeme word arguments : Text}

theorem DirectiveAt.unique {lexeme' word' arguments' : Text}
    (one : DirectiveAt origin text start lexeme word arguments)
    (other : DirectiveAt origin text start lexeme' word' arguments') :
    lexeme = lexeme' ∧ word = word' ∧ arguments = arguments' := by
  obtain ⟨before, behind, rfl, starts, shape⟩ := one
  obtain ⟨before', behind', split, starts', shape'⟩ := other
  -- Fronts of one text with equally many bytes are the same front.
  obtain ⟨middle, same, rest⟩ := Text.exists_middle_of_byteLength_le split (by omega)
  rw [same, Text.byteLength_append] at starts'
  have empty : middle = [] := Text.byteLength_eq_zero.1 (by omega)
  rw [empty, List.nil_append] at rest
  obtain ⟨sameLexeme, sameWord, sameArguments, _⟩ := shape.unique shape' rest
  exact ⟨sameLexeme, sameWord, sameArguments⟩

theorem directiveAt_append :
    DirectiveAt (origin + Text.byteLength front) behind start lexeme word arguments ↔
      DirectiveAt origin (front ++ behind) start lexeme word arguments ∧
        origin + Text.byteLength front ≤ start := by
  constructor
  · rintro ⟨before, after, rfl, rfl, shape⟩
    refine ⟨.within (front ++ before) after (by rw [List.append_assoc]) ?_ shape, by omega⟩
    rw [Text.byteLength_append]
    omega
  · -- What begins behind the front part stands in the rest, and takes nothing of the front.
    rintro ⟨⟨before, after, split, rfl, shape⟩, later⟩
    obtain ⟨middle, rfl, rest⟩ := Text.exists_middle_of_byteLength_le split (by omega)
    refine .within middle after rest ?_ shape
    rw [Text.byteLength_append]
    omega

/-- The choice from left to right can be made in one way only. -/
theorem Leftmost.unique {chosen chosen' : Nat → Nat → Prop} (one : Leftmost origin text chosen)
    (other : Leftmost origin text chosen') (start stop : Nat) :
    chosen start stop ↔ chosen' start stop := by
  -- Whether a directive is chosen depends on those that begin before it.
  induction start using Nat.strong_induction_on generalizing stop with
  | _ start ih =>
    rw [one start stop, other start stop]
    refine and_congr_right fun _ => ?_
    constructor
    · intro free start' stop' isChosen earlier
      exact free start' stop' ((ih start' earlier stop').2 isChosen) earlier
    · intro free start' stop' isChosen earlier
      exact free start' stop' ((ih start' earlier stop').1 isChosen) earlier

end

/-! ## Tokens against directives -/

namespace Token

/-- The token covers a directive and nothing else. -/
def IsMatch (origin : Nat) (text : Text) (token : Token) : Prop :=
  DirectiveSpan origin text token.start token.stop

/-- What becomes of a directive is decided by its whole word.  Closing directives lose what stands
behind it, and a word that names no directive leaves the text as it is. -/
structure Reads (token : Token) (lexeme word arguments : Text) : Prop where
  known : ∀ kind, TokenKind.ofKeyword? word = some kind → token.kind = kind ∧
    token.content = if kind = .endLayout ∨ kind = .endBlock then [] else arguments
  unknown : TokenKind.ofKeyword? word = none → token.kind = .raw ∧ token.content = lexeme

end Token

/-- The directives among the tokens of a text are the ones that going from left to right chooses. -/
structure Recognises (origin : Nat) (text : Text) (tokens : List Token) : Prop where
  leftmost : Leftmost origin text fun start stop =>
    ∃ token ∈ tokens, token.IsMatch origin text ∧ token.start = start ∧ token.stop = stop
  directives : ∀ token ∈ tokens, token.isDirective = true → token.IsMatch origin text
  reads : ∀ token ∈ tokens, ∀ lexeme word arguments,
    DirectiveAt origin text token.start lexeme word arguments →
    token.stop = token.start + Text.byteLength lexeme → token.Reads lexeme word arguments
  noneInside : ∀ token ∈ tokens, ¬ token.IsMatch origin text →
    ∀ start stop, DirectiveSpan origin text start stop → start < token.start ∨ token.stop ≤ start
  apart : tokens.IsChain fun left right => left.IsMatch origin text ∨ right.IsMatch origin text

namespace DirectiveMatch

/-- The byte behind a directive that is found behind the text `before`. -/
def resume (found : DirectiveMatch) (origin : Nat) (before : Text) : Nat :=
  origin + Text.byteLength before + Text.byteLength found.lexeme

variable {found : DirectiveMatch} {start : Nat}

theorem le_resume (found : DirectiveMatch) (origin : Nat) (before : Text) :
    origin + Text.byteLength before ≤ found.resume origin before :=
  Nat.le_add_right _ _

@[simp] theorem token_start : (found.token start).start = start := by
  unfold token
  split <;> rfl

@[simp] theorem token_stop :
    (found.token start).stop = start + Text.byteLength found.lexeme := by
  unfold token
  split <;> rfl

theorem token_reads : (found.token start).Reads found.lexeme found.word found.arguments := by
  constructor
  · intro kind named
    simp only [token, named, true_and]
    cases kind <;> rfl
  · intro unnamed
    simp [token, unnamed, Token.rawAt]

end DirectiveMatch

theorem mem_rawTokens {start : Nat} {html : Text} {token : Token} :
    token ∈ rawTokens start html ↔ html ≠ [] ∧ token = .rawAt start html := by
  unfold rawTokens
  split
  · next empty => simp [empty]
  · next nonempty => simp [nonempty]

theorem isChain_rawTokens {start : Nat} {html : Text} {related : Token → Token → Prop} :
    (rawTokens start html).IsChain related := by
  unfold rawTokens
  split
  · exact .nil
  · exact .singleton _

-- The spans of tokens only grow, which is what the choice from left to right looks at.
theorem le_start_of_mem_tokensFrom {origin : Nat} {text : Text} :
    ∀ token ∈ tokensFrom origin text, origin ≤ token.start := by
  fun_induction tokensFrom origin text with
  | case1 origin text none =>
    intro token isIn
    rw [(mem_rawTokens.1 isIn).2]
    exact Nat.le_refl _
  | case2 origin text before found next head ih =>
    intro token isIn
    rcases List.mem_append.1 isIn with isRaw | isIn
    · rw [(mem_rawTokens.1 isRaw).2]
      exact Nat.le_refl _
    · rcases List.mem_cons.1 isIn with rfl | isLater
      · simp [head]
      · have later := ih token isLater
        simp only [head, DirectiveMatch.token_stop] at later
        omega

/-! ## Without a directive -/

theorem recognises_rawTokens {origin : Nat} {text : Text}
    (none : ∀ start stop, ¬ DirectiveSpan origin text start stop) :
    Recognises origin text (rawTokens origin text) where
  leftmost := by
    intro start stop
    constructor
    · rintro ⟨token, _, isMatch, _⟩
      exact absurd isMatch (none _ _)
    · rintro ⟨stands, _⟩
      exact absurd stands (none _ _)
  directives := by
    intro token isIn directive
    rw [(mem_rawTokens.1 isIn).2] at directive
    cases directive
  reads := fun token _ lexeme word arguments stands _ =>
    absurd ⟨lexeme, word, arguments, stands, rfl⟩ (none _ _)
  noneInside := fun _ _ _ start stop stands => absurd stands (none start stop)
  apart := isChain_rawTokens

theorem not_directiveSpan_of_nextMatch? {origin start stop : Nat} {text : Text}
    (none : nextMatch? text = none) : ¬ DirectiveSpan origin text start stop := by
  rintro ⟨lexeme, word, arguments, ⟨before, behind, split, _, shape⟩, _⟩
  exact not_begins_of_nextMatch? none _ _ split ⟨lexeme, word, arguments, shape, ⟨behind, rfl⟩⟩

/-! ## The next directive and what comes behind it -/

section

variable {origin start stop : Nat} {text before lexeme word arguments : Text}
  {found : DirectiveMatch}

theorem directiveAt_of_nextMatch? (next : nextMatch? text = some (before, found)) :
    DirectiveAt origin text (origin + Text.byteLength before)
      found.lexeme found.word found.arguments := by
  obtain ⟨split, shape, _⟩ := leftmost_of_nextMatch? next
  exact .within before found.rest (by rw [split, List.append_assoc]) rfl shape

theorem le_start_of_nextMatch? (next : nextMatch? text = some (before, found))
    (stands : DirectiveSpan origin text start stop) :
    origin + Text.byteLength before ≤ start := by
  obtain ⟨split, _, leftmost⟩ := leftmost_of_nextMatch? next
  obtain ⟨lexeme, word, arguments, ⟨front, behind, whole, rfl, shape⟩, _⟩ := stands
  have shorter := leftmost front _ whole ⟨lexeme, word, arguments, shape, ⟨behind, rfl⟩⟩
  have within : before <+: front :=
    List.prefix_of_prefix_length_le ⟨found.lexeme ++ found.rest, by rw [split, List.append_assoc]⟩
      ⟨_, whole.symm⟩ shorter
  obtain ⟨extra, rfl⟩ := within
  rw [Text.byteLength_append]
  omega

theorem stop_of_nextMatch? (next : nextMatch? text = some (before, found))
    (stands : DirectiveSpan origin text (origin + Text.byteLength before) stop) :
    stop = found.resume origin before := by
  obtain ⟨lexeme, word, arguments, stands, rfl⟩ := stands
  obtain ⟨rfl, _⟩ := stands.unique (directiveAt_of_nextMatch? next)
  rfl

theorem directiveAt_rest (next : nextMatch? text = some (before, found)) :
    DirectiveAt (found.resume origin before) found.rest start lexeme word arguments ↔
      DirectiveAt origin text start lexeme word arguments ∧
        found.resume origin before ≤ start := by
  obtain ⟨split, _⟩ := leftmost_of_nextMatch? next
  rw [split, DirectiveMatch.resume, Nat.add_assoc, ← Text.byteLength_append]
  exact directiveAt_append

theorem directiveSpan_rest (next : nextMatch? text = some (before, found)) :
    DirectiveSpan (found.resume origin before) found.rest start stop ↔
      DirectiveSpan origin text start stop ∧ found.resume origin before ≤ start := by
  constructor
  · rintro ⟨lexeme, word, arguments, stands, ends⟩
    obtain ⟨stands', later⟩ := (directiveAt_rest next).1 stands
    exact ⟨⟨lexeme, word, arguments, stands', ends⟩, later⟩
  · rintro ⟨⟨lexeme, word, arguments, stands, ends⟩, later⟩
    exact ⟨lexeme, word, arguments, (directiveAt_rest next).2 ⟨stands, later⟩, ends⟩

/-- The next directive is chosen, and then those of the rest are. -/
theorem Leftmost.of_rest {chosen : Nat → Nat → Prop}
    (next : nextMatch? text = some (before, found))
    (rest : Leftmost (found.resume origin before) found.rest chosen) :
    Leftmost origin text fun start stop =>
      (start = origin + Text.byteLength before ∧ stop = found.resume origin before) ∨
        chosen start stop := by
  intro start stop
  constructor
  · rintro (⟨rfl, rfl⟩ | isChosen)
    · refine ⟨⟨_, _, _, directiveAt_of_nextMatch? next, rfl⟩, ?_⟩
      rintro start' stop' (⟨rfl, _⟩ | isChosen) earlier
      · exact absurd earlier (Nat.lt_irrefl _)
      · -- What is chosen in the rest does not begin before the next directive.
        obtain ⟨_, later⟩ := (directiveSpan_rest next).1 ((rest start' stop').1 isChosen).1
        have ahead := found.le_resume origin before
        omega
    · obtain ⟨stands, free⟩ := (rest start stop).1 isChosen
      obtain ⟨stands', later⟩ := (directiveSpan_rest next).1 stands
      refine ⟨stands', ?_⟩
      rintro start' stop' (⟨rfl, rfl⟩ | isChosen') earlier
      · exact later
      · exact free start' stop' isChosen' earlier
  · rintro ⟨stands, free⟩
    -- A directive that nothing reaches into is the next one or stands behind it.
    rcases Nat.eq_or_lt_of_le (le_start_of_nextMatch? next stands) with rfl | later
    · exact .inl ⟨rfl, stop_of_nextMatch? next stands⟩
    · have behind := free _ _ (.inl ⟨rfl, rfl⟩) later
      refine .inr ((rest start stop).2 ⟨(directiveSpan_rest next).2 ⟨stands, behind⟩, ?_⟩)
      exact fun start' stop' isChosen earlier => free start' stop' (.inr isChosen) earlier

end

section

variable {origin : Nat} {text before : Text} {found : DirectiveMatch} {token : Token}
  {tail : List Token}

theorem isMatch_token (next : nextMatch? text = some (before, found)) :
    (found.token (origin + Text.byteLength before)).IsMatch origin text :=
  ⟨_, _, _, by rw [DirectiveMatch.token_start]; exact directiveAt_of_nextMatch? next,
    by rw [DirectiveMatch.token_stop, DirectiveMatch.token_start]⟩

theorem not_isMatch_rawAt (next : nextMatch? text = some (before, found))
    (nonempty : before ≠ []) : ¬ (Token.rawAt origin before).IsMatch origin text := by
  intro isMatch
  have later : origin + Text.byteLength before ≤ origin := le_start_of_nextMatch? next isMatch
  exact nonempty (Text.byteLength_eq_zero.1 (by omega))

theorem isMatch_rest (next : nextMatch? text = some (before, found))
    (later : found.resume origin before ≤ token.start) :
    token.IsMatch (found.resume origin before) found.rest ↔ token.IsMatch origin text :=
  (directiveSpan_rest next).trans (and_iff_left later)

theorem mem_tokens_of_rest :
    token ∈ rawTokens origin before ++ found.token (origin + Text.byteLength before) :: tail ↔
      (before ≠ [] ∧ token = .rawAt origin before) ∨
        token = found.token (origin + Text.byteLength before) ∨ token ∈ tail := by
  rw [List.mem_append, List.mem_cons, mem_rawTokens]

theorem exists_match_of_rest {start stop : Nat} (next : nextMatch? text = some (before, found))
    (later : ∀ token ∈ tail, found.resume origin before ≤ token.start) :
    (∃ token ∈ rawTokens origin before ++ found.token (origin + Text.byteLength before) :: tail,
        token.IsMatch origin text ∧ token.start = start ∧ token.stop = stop) ↔
      (start = origin + Text.byteLength before ∧ stop = found.resume origin before) ∨
      ∃ token ∈ tail, token.IsMatch (found.resume origin before) found.rest ∧
        token.start = start ∧ token.stop = stop := by
  constructor
  · rintro ⟨token, isIn, isMatch, rfl, rfl⟩
    rcases mem_tokens_of_rest.1 isIn with ⟨nonempty, rfl⟩ | rfl | isLater
    · exact absurd isMatch (not_isMatch_rawAt next nonempty)
    · exact .inl ⟨DirectiveMatch.token_start, DirectiveMatch.token_stop⟩
    · exact .inr ⟨token, isLater, (isMatch_rest next (later token isLater)).2 isMatch, rfl, rfl⟩
  · rintro (⟨rfl, rfl⟩ | ⟨token, isLater, isMatch, rfl, rfl⟩)
    · exact ⟨_, mem_tokens_of_rest.2 (.inr (.inl rfl)), isMatch_token next,
        DirectiveMatch.token_start, DirectiveMatch.token_stop⟩
    · exact ⟨token, mem_tokens_of_rest.2 (.inr (.inr isLater)),
        (isMatch_rest next (later token isLater)).1 isMatch, rfl, rfl⟩

theorem isChain_of_rest (next : nextMatch? text = some (before, found))
    (later : ∀ token ∈ tail, found.resume origin before ≤ token.start)
    (apart : tail.IsChain fun left right =>
      left.IsMatch (found.resume origin before) found.rest ∨
        right.IsMatch (found.resume origin before) found.rest) :
    (rawTokens origin before ++ found.token (origin + Text.byteLength before) :: tail).IsChain
      fun left right => left.IsMatch origin text ∨ right.IsMatch origin text := by
  -- The match stands between the raw token and the rest, so both neighbours have it beside them.
  have isMatch : (found.token (origin + Text.byteLength before)).IsMatch origin text :=
    isMatch_token next
  have restApart := apart.imp_of_mem_imp fun left right isLeft isRight =>
    Or.imp (isMatch_rest next (later left isLeft)).1 (isMatch_rest next (later right isRight)).1
  refine List.isChain_append.2
    ⟨isChain_rawTokens, List.isChain_cons.2 ⟨fun _ _ => .inl isMatch, restApart⟩, ?_⟩
  intro left _ right isFirst
  cases isFirst
  exact .inr isMatch

theorem recognises_of_rest (next : nextMatch? text = some (before, found))
    (later : ∀ token ∈ tail, found.resume origin before ≤ token.start)
    (rest : Recognises (found.resume origin before) found.rest tail) :
    Recognises origin text
      (rawTokens origin before ++ found.token (origin + Text.byteLength before) :: tail) where
  leftmost := by
    intro start stop
    simp only [exists_match_of_rest next later]
    exact rest.leftmost.of_rest next start stop
  directives := by
    intro token isIn directive
    rcases mem_tokens_of_rest.1 isIn with ⟨_, rfl⟩ | rfl | isLater
    · cases directive
    · exact isMatch_token next
    · exact (isMatch_rest next (later token isLater)).1 (rest.directives token isLater directive)
  reads := by
    intro token isIn lexeme word arguments stands ends
    rcases mem_tokens_of_rest.1 isIn with ⟨nonempty, rfl⟩ | rfl | isLater
    · exact absurd ⟨lexeme, word, arguments, stands, ends⟩ (not_isMatch_rawAt next nonempty)
    · rw [DirectiveMatch.token_start] at stands
      obtain ⟨rfl, rfl, rfl⟩ := stands.unique (directiveAt_of_nextMatch? next)
      exact DirectiveMatch.token_reads
    · exact rest.reads token isLater lexeme word arguments
        ((directiveAt_rest next).2 ⟨stands, later token isLater⟩) ends
  noneInside := by
    intro token isIn noMatch start stop stands
    -- Nothing begins in the raw text, and what begins in a later token stands in the rest.
    rcases mem_tokens_of_rest.1 isIn with ⟨nonempty, rfl⟩ | rfl | isLater
    · exact .inr (le_start_of_nextMatch? next stands)
    · exact absurd (isMatch_token next) noMatch
    · by_cases earlier : start < token.start
      · exact .inl earlier
      · have behind := later token isLater
        exact rest.noneInside token isLater
          (fun isMatch => noMatch ((isMatch_rest next behind).1 isMatch)) start stop
          ((directiveSpan_rest next).2 ⟨stands, by omega⟩)
  apart := isChain_of_rest next later rest.apart

end

theorem recognises_tokensFrom (origin : Nat) (text : Text) :
    Recognises origin text (tokensFrom origin text) := by
  fun_induction tokensFrom origin text with
  | case1 origin text none =>
    exact recognises_rawTokens fun _ _ => not_directiveSpan_of_nextMatch? none
  | case2 origin text before found next head ih =>
    have sameStop : head.stop = found.resume origin before := DirectiveMatch.token_stop
    rw [sameStop] at ih ⊢
    exact recognises_of_rest next le_start_of_mem_tokensFrom ih

/-- The tokens of directive shape are the leftmost directives, and no other choice of directives is
leftmost. -/
theorem tokenize_recognises (source : Text) :
    Recognises 0 source (tokenize source) ∧
      ∀ chosen, Leftmost 0 source chosen → ∀ start stop, chosen start stop ↔
        ∃ token ∈ tokenize source,
          token.IsMatch 0 source ∧ token.start = start ∧ token.stop = stop := by
  have recognises : Recognises 0 source (tokenize source) := recognises_tokensFrom 0 source
  exact ⟨recognises, fun chosen leftmost => leftmost.unique recognises.leftmost⟩

end StaticSite
