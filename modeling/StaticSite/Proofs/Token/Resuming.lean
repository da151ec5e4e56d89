import StaticSite.Proofs.Token.Straddling

/-!
# Where scanning falls into step

Whether a directive begins somewhere is decided by the text up to the next two closing braces.  So
what stands behind a directive has no say in finding it, and behind every text that ends in one the
scanner goes on as if it began there, whatever it found before.
-/

namespace StaticSite

section

variable {text front before behind rest lexeme word arguments : Text} {found : DirectiveMatch}

/-! ## Where a directive begins -/

theorem BeginsDirective.append (begins : BeginsDirective text) (rest : Text) :
    BeginsDirective (text ++ rest) := by
  obtain ⟨lexeme, word, arguments, shape, within⟩ := begins
  exact ⟨lexeme, word, arguments, shape, within.trans (List.prefix_append _ _)⟩

theorem DirectiveShape.begins (shape : DirectiveShape lexeme word arguments) (rest : Text) :
    BeginsDirective (lexeme ++ rest) :=
  ⟨lexeme, word, arguments, shape, List.prefix_append _ _⟩

theorem BeginsDirective.openBraces_prefix (begins : BeginsDirective text) :
    openBraces <+: text := by
  obtain ⟨lexeme, word, arguments, shape, within⟩ := begins
  exact shape.openBraces_prefix.trans within

/-- A directive that begins in front of two closing braces ends there at the latest. -/
theorem beginsDirective_append_iff (closed : closeBraces <:+ text) :
    BeginsDirective (text ++ rest) ↔ BeginsDirective text := by
  constructor
  · rintro ⟨lexeme, word, arguments, shape, within⟩
    refine ⟨lexeme, word, arguments, shape, ?_⟩
    rcases List.prefix_or_prefix_of_prefix within (List.prefix_append text rest) with short | long
    · exact short
    · obtain ⟨more, rfl⟩ := long
      obtain ⟨front, rfl⟩ := closed
      rw [shape.eq_nil_of_closeBraces rfl, List.append_nil]
  · exact fun begins => begins.append rest

/-- Opening braces that are followed by another one begin no directive. -/
theorem not_begins_of_brace (rest : Text) :
    ¬ BeginsDirective ('\x7b' :: '\x7b' :: '\x7b' :: rest) := by
  intro begins
  obtain ⟨body, found, split, matched⟩ := beginsDirective_iff.1 begins
  have sameBody : '\x7b' :: rest = body := (List.cons.inj (List.cons.inj split).2).2
  subst sameBody
  have noWord : DirectiveMatch.ofBody? ('\x7b' :: rest) = none := rfl
  rw [noWord] at matched
  cases matched

/-! ## The next directive -/

theorem nextMatch?_eq_none_iff : nextMatch? text = none ↔
    ∀ front behind, text = front ++ behind → ¬ BeginsDirective behind := by
  refine ⟨not_begins_of_nextMatch?, fun none => ?_⟩
  cases next : nextMatch? text with
  | none => rfl
  | some result =>
    obtain ⟨before, found⟩ := result
    obtain ⟨split, shape, _⟩ := leftmost_of_nextMatch? next
    rw [List.append_assoc] at split
    exact absurd (shape.begins found.rest) (none before _ split)

theorem nextMatch?_eq_some_iff : nextMatch? text = some (before, found) ↔
    text = before ++ found.lexeme ++ found.rest ∧
      DirectiveShape found.lexeme found.word found.arguments ∧
      ∀ front behind, text = front ++ behind → BeginsDirective behind →
        before.length ≤ front.length := by
  refine ⟨leftmost_of_nextMatch?, fun ⟨split, shape, leftmost⟩ => ?_⟩
  have split' : text = before ++ (found.lexeme ++ found.rest) := by rw [split, List.append_assoc]
  cases next : nextMatch? text with
  | none =>
    exact absurd (shape.begins found.rest) (nextMatch?_eq_none_iff.1 next before _ split')
  | some result =>
    -- The leftmost of two directives is to the left of the other one, both ways.
    obtain ⟨before', found'⟩ := result
    obtain ⟨other, shape', leftmost'⟩ := leftmost_of_nextMatch? next
    rw [List.append_assoc] at other
    have lengths := Nat.le_antisymm (leftmost before' _ other (shape'.begins found'.rest))
      (leftmost' before _ split' (shape.begins found.rest))
    obtain ⟨rfl, same⟩ := List.append_inj (split'.symm.trans other) lengths
    obtain ⟨sameLexeme, sameWord, sameArguments, sameRest⟩ := shape.unique shape' same
    obtain ⟨word, arguments, lexeme, rest⟩ := found
    obtain ⟨word', arguments', lexeme', rest'⟩ := found'
    cases sameLexeme
    cases sameWord
    cases sameArguments
    cases sameRest
    rfl

theorem DirectiveFree.nextMatch?_eq_none (free : DirectiveFree text) : nextMatch? text = none := by
  refine nextMatch?_eq_none_iff.2 ?_
  rintro front _ rfl ⟨lexeme, word, arguments, shape, behind, rfl⟩
  exact free _ _ _ shape ⟨front, behind, List.append_assoc ..⟩

/-- What stands behind a directive has no say in finding it. -/
theorem nextMatch?_rest (next : nextMatch? text = some (before, found)) (rest : Text) :
    nextMatch? (before ++ (found.lexeme ++ rest)) = some (before, { found with rest }) := by
  obtain ⟨split, shape, leftmost⟩ := leftmost_of_nextMatch? next
  refine nextMatch?_eq_some_iff.2 ⟨(List.append_assoc ..).symm, shape, ?_⟩
  intro front behind other begins
  rcases List.append_eq_append_iff.1 other with ⟨middle, rfl, _⟩ | ⟨middle, rfl, rfl⟩
  · rw [List.length_append]
    exact Nat.le_add_right _ _
  · -- What begins to the left of the directive does so because of the text up to its end.
    rw [← List.append_assoc, beginsDirective_append_iff
      (shape.closeBraces_suffix.trans (List.suffix_append _ _))] at begins
    refine leftmost front (middle ++ found.lexeme ++ found.rest) ?_ (begins.append _)
    rw [split]
    simp only [List.append_assoc]

theorem nextMatch?_append_of_some (next : nextMatch? text = some (before, found)) (rest : Text) :
    nextMatch? (text ++ rest) = some (before, { found with rest := found.rest ++ rest }) := by
  have whole := nextMatch?_rest next (found.rest ++ rest)
  rwa [← List.append_assoc, ← List.append_assoc, ← (leftmost_of_nextMatch? next).1] at whole

/-- A text without directives has none in its parts. -/
theorem nextMatch?_parts_of_none (next : nextMatch? (front ++ behind) = none) :
    nextMatch? front = none ∧ nextMatch? behind = none := by
  have nowhere := nextMatch?_eq_none_iff.1 next
  refine ⟨nextMatch?_eq_none_iff.2 fun before after split begins => ?_,
    nextMatch?_eq_none_iff.2 fun before after split => ?_⟩
  · exact nowhere before (after ++ behind) (by rw [split, List.append_assoc]) (begins.append _)
  · exact nowhere (front ++ before) after (by rw [split, List.append_assoc])

/-- Where the next directive begins behind a front part, it is the first one of the rest. -/
theorem nextMatch?_parts_of_some
    (next : nextMatch? (front ++ behind) = some (front ++ before, found)) :
    nextMatch? front = none ∧ nextMatch? behind = some (before, found) := by
  have free : DirectiveFree front := fun lexeme word arguments shape within =>
    directiveFree_before next _ _ _ shape (within.trans (List.prefix_append _ _).isInfix)
  obtain ⟨split, shape, leftmost⟩ := leftmost_of_nextMatch? next
  simp only [List.append_assoc, List.append_cancel_left_eq] at split
  refine ⟨free.nextMatch?_eq_none, nextMatch?_eq_some_iff.2 ⟨?_, shape, ?_⟩⟩
  · rw [split, List.append_assoc]
  · intro inner after split' begins
    have later := leftmost (front ++ inner) after (by rw [split', List.append_assoc]) begins
    rw [List.length_append, List.length_append] at later
    exact Nat.le_of_add_le_add_left later

/-- Text in which no directive begins is passed. -/
theorem nextMatch?_append_of_not_begins
    (none : ∀ front behind, text = front ++ behind → behind ≠ [] →
      ¬ BeginsDirective (behind ++ rest)) :
    nextMatch? (text ++ rest)
      = (nextMatch? rest).map fun (before, found) => (text ++ before, found) := by
  induction text with
  | nil => exact Option.map_id'.symm
  | cons c text ih =>
    have notHere : ¬ BeginsDirective (c :: (text ++ rest)) :=
      none [] (c :: text) rfl (List.cons_ne_nil _ _)
    have later := ih fun front behind split => none (c :: front) behind (by rw [split]; rfl)
    rw [List.cons_append, nextMatch?_of_not_begins notHere, later, Option.map_map]
    rfl

/-- Text without opening braces is passed, unless its end makes up such braces with what follows
and these begin a directive. -/
theorem nextMatch?_append_of_unopened (unopened : ¬ openBraces <:+: text)
    (seam : text.getLast? = some '\x7b' → ¬ BeginsDirective ('\x7b' :: rest)) :
    nextMatch? (text ++ rest)
      = (nextMatch? rest).map fun (before, found) => (text ++ before, found) := by
  refine nextMatch?_append_of_not_begins fun front behind split nonempty begins => ?_
  obtain ⟨body, braces⟩ := begins.openBraces_prefix
  match behind, nonempty with
  | [c], _ =>
    obtain rfl : '\x7b' = c := (List.cons.inj braces).1
    exact seam (by rw [split, List.getLast?_concat]) begins
  | c :: d :: more, _ =>
    obtain rfl : '\x7b' = c := (List.cons.inj braces).1
    obtain rfl : '\x7b' = d := (List.cons.inj (List.cons.inj braces).2).1
    exact unopened ⟨front, more, by rw [split, List.append_assoc]; rfl⟩

end

/-! ## Tokens -/

section

variable {text before behind rest lexeme word arguments : Text} {found : DirectiveMatch}
  {origin index : Nat} {token : Token}

theorem tokensFrom_of_none (none : nextMatch? text = none) (origin : Nat) :
    tokensFrom origin text = rawTokens origin text := by
  rw [tokensFrom]
  split
  · rfl
  · next next => rw [none] at next; cases next

theorem tokensFrom_of_some (next : nextMatch? text = some (before, found)) (origin : Nat) :
    tokensFrom origin text = rawTokens origin before
      ++ found.token (origin + Text.byteLength before)
        :: tokensFrom (found.resume origin before) found.rest := by
  rw [tokensFrom]
  split
  · next none => rw [none] at next; cases next
  · next before' found' next' =>
    rw [next'] at next
    cases next
    dsimp only
    rw [DirectiveMatch.token_stop]
    rfl

/-- The text behind the first directive of a text that ends in one is empty or ends in it too. -/
theorem rest_of_nextMatch?_shape (shape : DirectiveShape lexeme word arguments)
    (next : nextMatch? (before ++ lexeme) = some (behind, found)) :
    found.rest = [] ∨ ∃ later, found.rest = later ++ lexeme ∧ later.length < before.length := by
  obtain ⟨split, shape', leftmost⟩ := leftmost_of_nextMatch? next
  have begins : BeginsDirective lexeme := by
    have alone := shape.begins []
    rwa [List.append_nil] at alone
  have notLater := leftmost before lexeme rfl begins
  have positive := List.length_pos_iff.2 shape'.ne_nil
  rcases List.append_eq_append_iff.1 split with ⟨shared, ends, same⟩ | ⟨later, long, same⟩
  · -- The last directive begins in the first one or right behind it.
    have isFront : behind <+: before :=
      List.prefix_of_prefix_length_le ⟨_, ends⟩ (List.prefix_append _ _) notLater
    obtain ⟨inner, rfl⟩ := isFront
    rw [List.append_assoc, List.append_cancel_left_eq] at ends
    by_cases nonempty : shared = []
    · refine .inr ⟨[], by rw [same, nonempty]; rfl, ?_⟩
      have lengths := congrArg List.length ends
      simp only [List.length_append, List.length_nil, nonempty] at lengths ⊢
      omega
    · have whole : shared ++ found.rest = lexeme ++ [] := by rw [List.append_nil, same]
      have isLast := shape.shared_eq (ends ▸ shape') nonempty whole
      exact .inl (List.append_cancel_left (isLast ▸ whole))
  · refine .inr ⟨later, same, ?_⟩
    have lengths := congrArg List.length long
    simp only [List.length_append] at lengths
    omega

/-- Behind the text the scanner goes on as if it began there. -/
def Settles (text : Text) : Prop :=
  ∀ origin rest, tokensFrom origin (text ++ rest)
    = tokensFrom origin text ++ tokensFrom (origin + Text.byteLength text) rest

theorem settles_nil : Settles [] := by
  intro origin rest
  rw [tokensFrom_of_none (show nextMatch? [] = none from rfl)]
  rfl

/-- A text that ends in a directive settles the scanner. -/
theorem settles_of_shape (shape : DirectiveShape lexeme word arguments) (before : Text) :
    Settles (before ++ lexeme) := by
  -- Each directive that is found is the last one or leaves a shorter text that ends in that.
  induction size : before.length using Nat.strong_induction_on generalizing before with
  | _ size ih =>
    intro origin rest
    subst size
    cases next : nextMatch? (before ++ lexeme) with
    | none =>
      have begins := shape.begins []
      rw [List.append_nil] at begins
      exact absurd begins (nextMatch?_eq_none_iff.1 next before lexeme rfl)
    | some result =>
      obtain ⟨inner, found⟩ := result
      have whole : origin + Text.byteLength (before ++ lexeme)
          = found.resume origin inner + Text.byteLength found.rest := by
        rw [(leftmost_of_nextMatch? next).1, DirectiveMatch.resume]
        simp only [Text.byteLength_append]
        omega
      have settles : Settles found.rest := by
        rcases rest_of_nextMatch?_shape shape next with empty | ⟨later, ends, shorter⟩
        · exact empty ▸ settles_nil
        · exact ends ▸ ih _ shorter later rfl
      rw [tokensFrom_of_some next, tokensFrom_of_some (nextMatch?_append_of_some next rest), whole,
        List.append_assoc, List.cons_append, settles]
      rfl

namespace Token

/-- The same token, `bytes` further on. -/
def moveBy (bytes : Nat) (token : Token) : Token :=
  { token with start := token.start + bytes, stop := token.stop + bytes }

/-- What a directive says: its kind and its content. -/
def reading (token : Token) : TokenKind × Text :=
  (token.kind, token.content)

end Token

theorem DirectiveMatch.token_moveBy (found : DirectiveMatch) (start bytes : Nat) :
    found.token (start + bytes) = (found.token start).moveBy bytes := by
  unfold token
  split
  · simp only [Token.moveBy, Token.mk.injEq, true_and]
    omega
  · simp only [Token.rawAt, Token.moveBy, Token.mk.injEq, true_and]
    omega

theorem rawTokens_moveBy (start bytes : Nat) (html : Text) :
    rawTokens (start + bytes) html = (rawTokens start html).map (Token.moveBy bytes) := by
  unfold rawTokens
  split
  · rfl
  · simp only [Token.rawAt, Token.moveBy, List.map_cons, List.map_nil, List.cons.injEq,
      Token.mk.injEq, true_and, and_true]
    omega

/-- The tokens of a text are the same wherever it begins, up to their positions. -/
theorem tokensFrom_moveBy (origin bytes : Nat) (text : Text) :
    tokensFrom (origin + bytes) text = (tokensFrom origin text).map (Token.moveBy bytes) := by
  fun_induction tokensFrom origin text with
  | case1 origin text none => rw [tokensFrom_of_none none, rawTokens_moveBy]
  | case2 origin text before found next head ih =>
    have opening : origin + bytes + Text.byteLength before
        = origin + Text.byteLength before + bytes := by omega
    have resumed : found.resume (origin + bytes) before = head.stop + bytes := by
      rw [DirectiveMatch.token_stop, DirectiveMatch.resume, opening]
      omega
    rw [tokensFrom_of_some next, List.map_append, List.map_cons, ← ih, rawTokens_moveBy, opening,
      DirectiveMatch.token_moveBy, resumed]

/-! ## Directives -/

/-- The directives among some tokens, by what they say. -/
def directivesAmong (tokens : List Token) : List (TokenKind × Text) :=
  (tokens.filter Token.isDirective).map Token.reading

/-- The directives of a source, in their order. -/
def directives (source : Text) : List (TokenKind × Text) :=
  directivesAmong (tokenize source)

@[simp] theorem directivesAmong_append (left right : List Token) :
    directivesAmong (left ++ right) = directivesAmong left ++ directivesAmong right := by
  simp [directivesAmong]

theorem directivesAmong_cons (token : Token) (tokens : List Token) :
    directivesAmong (token :: tokens) = directivesAmong [token] ++ directivesAmong tokens :=
  directivesAmong_append [token] tokens

@[simp] theorem directivesAmong_rawTokens (start : Nat) (html : Text) :
    directivesAmong (rawTokens start html) = [] := by
  unfold rawTokens
  split <;> rfl

theorem directivesAmong_moveBy (bytes : Nat) (tokens : List Token) :
    directivesAmong (tokens.map (Token.moveBy bytes)) = directivesAmong tokens := by
  simp only [directivesAmong, List.filter_map, List.map_map]
  rfl

/-- What the directives of a text say does not hang on where it begins. -/
theorem directivesAmong_tokensFrom (origin : Nat) (text : Text) :
    directivesAmong (tokensFrom origin text) = directives text := by
  have moved := tokensFrom_moveBy 0 origin text
  rw [Nat.zero_add] at moved
  rw [moved, directivesAmong_moveBy]
  rfl

theorem directives_of_none (none : nextMatch? text = none) : directives text = [] := by
  rw [directives, tokenize, tokensFrom_of_none none, directivesAmong_rawTokens]

@[simp] theorem directives_nil : directives [] = [] :=
  directives_of_none rfl

theorem directives_of_some (next : nextMatch? text = some (before, found)) :
    directives text = directivesAmong [found.token 0] ++ directives found.rest := by
  have moved := found.token_moveBy 0 (0 + Text.byteLength before)
  rw [Nat.zero_add] at moved
  rw [directives, tokenize, tokensFrom_of_some next, directivesAmong_append,
    directivesAmong_rawTokens, List.nil_append, directivesAmong_cons, directivesAmong_tokensFrom,
    moved]
  exact congrArg (· ++ _) (directivesAmong_moveBy _ [found.token 0])

/-- Text without opening braces holds no directive and makes up none with what follows it. -/
theorem directives_append_of_unopened (unopened : ¬ openBraces <:+: text)
    (seam : text.getLast? = some '\x7b' → ¬ BeginsDirective ('\x7b' :: rest)) :
    directives (text ++ rest) = directives rest := by
  have passed := nextMatch?_append_of_unopened unopened seam
  cases next : nextMatch? rest with
  | none =>
    rw [next] at passed
    rw [directives_of_none passed, directives_of_none next]
  | some result =>
    obtain ⟨before, found⟩ := result
    rw [next] at passed
    rw [directives_of_some passed, directives_of_some next]

theorem Settles.directives_append (settles : Settles text) (rest : Text) :
    directives (text ++ rest) = directives text ++ directives rest := by
  rw [directives, tokenize, settles, directivesAmong_append, directivesAmong_tokensFrom,
    directivesAmong_tokensFrom]

/-! ## Parting at a directive -/

/-- A token that covers a directive parts the tokens in those of the text in front of it and those
of the text behind. -/
inductive PartsAt (origin : Nat) (text : Text) (index : Nat) (token : Token) : Prop where
  | parts (front lexeme word arguments behind : Text) (split : text = front ++ (lexeme ++ behind))
      (shape : DirectiveShape lexeme word arguments)
      (starts : token.start = origin + Text.byteLength front)
      (stops : token.stop = token.start + Text.byteLength lexeme)
      (inFront : (tokensFrom origin text).take index = tokensFrom origin front)
      (through : (tokensFrom origin text).take (index + 1) = tokensFrom origin (front ++ lexeme))
      (inBehind : (tokensFrom origin text).drop (index + 1) = tokensFrom token.stop behind)

/-- What stands up to the token follows from what stands in front of it and behind it. -/
theorem PartsAt.of_behind (front behind : Text) (split : text = front ++ (lexeme ++ behind))
    (shape : DirectiveShape lexeme word arguments)
    (starts : token.start = origin + Text.byteLength front)
    (stops : token.stop = token.start + Text.byteLength lexeme)
    (inFront : (tokensFrom origin text).take index = tokensFrom origin front)
    (inBehind : (tokensFrom origin text).drop (index + 1) = tokensFrom token.stop behind) :
    PartsAt origin text index token := by
  refine .parts front lexeme word arguments behind split shape starts stops inFront ?_ inBehind
  have whole := settles_of_shape shape front origin behind
  have ends : origin + Text.byteLength (front ++ lexeme) = token.stop := by
    rw [stops, starts, Text.byteLength_append, Nat.add_assoc]
  rw [List.append_assoc, ← split, ends, ← inBehind] at whole
  exact List.append_cancel_right ((List.take_append_drop _ _).trans whole)

/-- The first directive parts the tokens in front of it, of which there is one at most, and those of
the rest. -/
theorem partsAt_first (next : nextMatch? text = some (before, found)) (origin : Nat) :
    PartsAt origin text (rawTokens origin before).length
      (found.token (origin + Text.byteLength before)) := by
  obtain ⟨split, shape, _⟩ := leftmost_of_nextMatch? next
  have tokens := tokensFrom_of_some next origin
  have front : tokensFrom origin before = rawTokens origin before :=
    tokensFrom_of_none (directiveFree_before next).nextMatch?_eq_none origin
  refine .of_behind before found.rest (by rw [split, List.append_assoc]) shape
    DirectiveMatch.token_start (by simp) ?_ ?_
  · rw [tokens, List.take_left, front]
  · rw [tokens, ← List.drop_drop, List.drop_left, DirectiveMatch.token_stop]
    rfl

/-- What parts the tokens of the rest behind a directive parts those of the whole text. -/
theorem PartsAt.of_rest (next : nextMatch? text = some (before, found))
    (parts : PartsAt (found.resume origin before) found.rest index token) :
    PartsAt origin text ((rawTokens origin before).length + (index + 1)) token := by
  obtain ⟨front, lexeme, word, arguments, behind, split', shape', starts', stops', inFront, _,
    inBehind⟩ := parts
  obtain ⟨split, _⟩ := leftmost_of_nextMatch? next
  have tokens := tokensFrom_of_some next origin
  have next' := nextMatch?_rest next front
  refine .of_behind (before ++ (found.lexeme ++ front)) behind ?_ shape' ?_ stops' ?_ ?_
  · rw [split, split']
    simp only [List.append_assoc]
  · rw [starts', DirectiveMatch.resume]
    simp only [Text.byteLength_append]
    omega
  · rw [tokens, List.take_length_add_append, List.take_succ_cons, inFront,
      tokensFrom_of_some next']
    rfl
  · rw [tokens, Nat.add_assoc, List.drop_length_add_append]
    exact inBehind

theorem partsAt_of_getElem? (origin : Nat) (text : Text) : ∀ index token,
    (tokensFrom origin text)[index]? = some token → token.IsMatch origin text →
      PartsAt origin text index token := by
  fun_induction tokensFrom origin text with
  | case1 origin text none =>
    exact fun _ _ _ isMatch => absurd isMatch (not_directiveSpan_of_nextMatch? none)
  | case2 origin text before found next head ih =>
    intro index token here isMatch
    have resumed : head.stop = found.resume origin before := DirectiveMatch.token_stop
    rcases Nat.lt_trichotomy index (rawTokens origin before).length with inRaw | rfl | later
    · rw [List.getElem?_append_left inRaw] at here
      obtain ⟨nonempty, rfl⟩ := mem_rawTokens.1 (List.mem_of_getElem? here)
      exact absurd isMatch (not_isMatch_rawAt next nonempty)
    · rw [List.getElem?_append_right (Nat.le_refl _), Nat.sub_self] at here
      obtain rfl : head = token := Option.some.inj here
      exact partsAt_first next origin
    · obtain ⟨inner, rfl⟩ : ∃ inner, index = (rawTokens origin before).length + (inner + 1) :=
        ⟨index - (rawTokens origin before).length - 1, by omega⟩
      rw [List.getElem?_append_right (Nat.le_add_right _ _), Nat.add_sub_cancel_left,
        List.getElem?_cons_succ] at here
      have isLater := le_start_of_mem_tokensFrom token (List.mem_of_getElem? here)
      rw [resumed] at isLater
      have inRest := ih inner token here (resumed ▸ (isMatch_rest next isLater).2 isMatch)
      exact (resumed ▸ inRest).of_rest next

end

end StaticSite
