import StaticSite.Proofs.Token.Removing

/-!
# Sources with one more directive

A directive is put on a line of its own somewhere into a source.  It is a token there, unless the
text in front of it ends in the beginning of a directive: that goes on over the end of the line
then, and ends where the new directive does.  A directive that the line is put into is torn apart.
-/

namespace StaticSite

/-! ## Directives on the two sides of a place -/

section

variable {text front behind lexeme word arguments : Text} {origin index : Nat} {token : Token}

/-- Where no directive among the tokens reaches over a place, the directives are those in front of
it and those behind it. -/
theorem directives_append_of_parted (origin : Nat) (front behind : Text)
    (parted : ∀ token ∈ tokensFrom origin (front ++ behind),
      token.IsMatch origin (front ++ behind) → token.stop ≤ origin + Text.byteLength front ∨
        origin + Text.byteLength front ≤ token.start) :
    directives (front ++ behind) = directives front ++ directives behind := by
  -- Each directive that ends in front of the place leaves a shorter text in front of it.
  induction size : front.length using Nat.strong_induction_on generalizing origin front with
  | _ size ih =>
    subst size
    cases next : nextMatch? (front ++ behind) with
    | none =>
      obtain ⟨inFront, inBehind⟩ := nextMatch?_parts_of_none next
      rw [directives_of_none next, directives_of_none inFront, directives_of_none inBehind]
      rfl
    | some result =>
      obtain ⟨before, found⟩ := result
      obtain ⟨split, shape, _⟩ := leftmost_of_nextMatch? next
      have tokens := tokensFrom_of_some next origin
      have isFirst := parted (found.token (origin + Text.byteLength before))
        (tokens ▸ List.mem_append_right _ List.mem_cons_self) (isMatch_token next)
      rw [DirectiveMatch.token_start, DirectiveMatch.token_stop] at isFirst
      rcases isFirst with ends | begins
      · obtain ⟨middle, rfl, rest⟩ := Text.exists_middle_of_byteLength_le split.symm
          (by rw [Text.byteLength_append]; omega)
        have shorter : middle.length < (before ++ found.lexeme ++ middle).length := by
          have positive := List.length_pos_iff.2 shape.ne_nil
          simp only [List.length_append]
          omega
        have resumed : found.resume origin before + Text.byteLength middle
            = origin + Text.byteLength (before ++ found.lexeme ++ middle) := by
          rw [DirectiveMatch.resume]
          simp only [Text.byteLength_append]
          omega
        have parted' : ∀ token ∈ tokensFrom (found.resume origin before) (middle ++ behind),
            token.IsMatch (found.resume origin before) (middle ++ behind) →
              token.stop ≤ found.resume origin before + Text.byteLength middle ∨
                found.resume origin before + Text.byteLength middle ≤ token.start := by
          intro token isIn isMatch
          rw [← rest] at isIn isMatch
          rw [resumed]
          exact parted token (tokens ▸ List.mem_append_right _ (List.mem_cons_of_mem _ isIn))
            ((isMatch_rest next (le_start_of_mem_tokensFrom token isIn)).1 isMatch)
        have later := ih middle.length shorter (found.resume origin before) middle parted' rfl
        have inFront := nextMatch?_rest next middle
        rw [← List.append_assoc] at inFront
        rw [directives_of_some next, directives_of_some inFront, rest, later, List.append_assoc]
        rfl
      · rw [List.append_assoc] at split
        obtain ⟨middle, rfl, _⟩ := Text.exists_middle_of_byteLength_le split (by omega)
        obtain ⟨inFront, inBehind⟩ := nextMatch?_parts_of_some next
        rw [directives_of_some next, directives_of_none inFront, directives_of_some inBehind]
        rfl

/-- Text that closes no braces ends no directive, neither its own nor one that begins before it. -/
theorem directives_append_of_unclosed (unclosed : ¬ closeBraces <:+: text)
    (seam : text.head? ≠ some '\x7d') (front : Text) :
    directives (front ++ text) = directives front := by
  have alone : directives text = [] :=
    directives_of_none (directiveFree_of_not_closeBraces unclosed).nextMatch?_eq_none
  rw [directives_append_of_parted 0 front text, alone, List.append_nil]
  rintro token isIn ⟨lexeme, word, arguments, ⟨before, behind, split, starts, shape⟩, stops⟩
  by_contra reaches
  have whole : (before ++ lexeme) ++ behind = front ++ text := by rw [split, List.append_assoc]
  obtain ⟨inner, ends, rest⟩ := Text.exists_middle_of_byteLength_le whole.symm
    (by rw [Text.byteLength_append]; omega)
  -- A directive over the seam ends in closing braces: within the text, or across the seam.
  have closing : closeBraces <:+ front ++ inner :=
    ends ▸ shape.closeBraces_suffix.trans (List.suffix_append _ _)
  rcases List.suffix_or_suffix_of_suffix closing (List.suffix_append front inner) with
    within | short
  · exact unclosed (within.isInfix.trans ⟨[], behind, by rw [rest]; rfl⟩)
  · cases inner with
    | nil =>
      have lengths := congrArg Text.byteLength ends
      simp only [Text.byteLength_append, Text.byteLength_nil] at lengths
      omega
    | cons c inner =>
      have isClose : c = '\x7d' := by
        have isIn := short.subset (List.mem_cons_self (a := c) (l := inner))
        simpa [closeBraces] using isIn
      exact seam (by rw [rest, isClose]; rfl)

/-- What follows the rest of a directive begins behind it: no directive goes on over closing
braces. -/
theorem directives_append_of_ending (shape : DirectiveShape (front ++ text) word arguments)
    (behind : Text) : directives (text ++ behind) = directives text ++ directives behind := by
  refine directives_append_of_parted 0 text behind ?_
  rintro token isIn ⟨lexeme, word', arguments', ⟨before, after, split, starts, shape'⟩, stops⟩
  by_contra reaches
  obtain ⟨inner, rfl, rest⟩ := Text.exists_middle_of_byteLength_le split.symm (by omega)
  simp only [Text.byteLength_append] at reaches
  obtain ⟨shared, rfl, _⟩ := Text.exists_middle_of_byteLength_le rest.symm (by omega)
  rw [Text.byteLength_append] at stops
  rw [← List.append_assoc] at shape
  rcases List.suffix_or_suffix_of_suffix shape.closeBraces_suffix
    (List.suffix_append (front ++ before) inner) with ⟨start, rfl⟩ | short
  · rw [shape'.eq_nil_of_closeBraces rfl, Text.byteLength_nil] at stops
    omega
  · cases inner with
    | nil =>
      rw [Text.byteLength_nil] at reaches
      omega
    | cons c inner =>
      have isOpen : c = '\x7b' := shape'.eq_of_cons
      exact absurd (short.subset List.mem_cons_self) (isOpen ▸ by decide)

/-- A directive that a place is inside of parts the others: those of the text in front of the place
come before it, and those of the text behind the place begin in it or come behind it. -/
theorem directives_of_straddled (here : (tokenize (front ++ behind))[index]? = some token)
    (isMatch : token.IsMatch 0 (front ++ behind)) (starts : token.start < Text.byteLength front)
    (stops : Text.byteLength front < token.stop) :
    directives front = directivesAmong ((tokenize (front ++ behind)).take index) ∧
      ∃ inner, inner <:+ token.lexeme (front ++ behind) ∧
        directives behind = directives inner
          ++ directivesAmong ((tokenize (front ++ behind)).drop (index + 1)) := by
  obtain ⟨before, lexeme, word, arguments, after, split, shape, starts', stops', inFront, _,
    inBehind⟩ := partsAt_of_getElem? 0 _ index token here isMatch
  rw [Nat.zero_add] at starts'
  obtain ⟨left, rfl, rest⟩ := Text.exists_middle_of_byteLength_le split.symm (by omega)
  simp only [Text.byteLength_append] at starts stops
  obtain ⟨right, rfl, rfl⟩ := Text.exists_middle_of_byteLength_le rest.symm (by omega)
  rw [Text.byteLength_append] at stops'
  have covers : token.lexeme (before ++ left ++ (right ++ after)) = left ++ right := by
    have within : token.stop - token.start = Text.byteLength (left ++ right) := by
      rw [Text.byteLength_append]
      omega
    have regrouped : before ++ left ++ (right ++ after) = before ++ ((left ++ right) ++ after) := by
      simp only [List.append_assoc]
    rw [Token.lexeme, within, starts', regrouped, Text.dropBytes_append, Text.takeBytes_append]
  rw [covers]
  -- The part of the directive in front of the place closes no braces, so there it is no directive.
  have unclosed : ¬ closeBraces <:+: left := by
    rintro ⟨x, y, rfl⟩
    have none := shape.eq_nil_of_closeBraces (List.append_assoc ..)
    rw [(List.append_eq_nil_iff.1 none).2, Text.byteLength_nil] at stops'
    omega
  have seam : left.head? ≠ some '\x7d' := by
    cases left with
    | nil => exact (Option.some_ne_none _).symm
    | cons c left =>
      have isOpen : c = '\x7b' := shape.eq_of_cons
      rw [List.head?_cons, isOpen]
      decide
  refine ⟨?_, right, List.suffix_append _ _, ?_⟩
  · rw [directives_append_of_unclosed unclosed seam, tokenize, inFront, directivesAmong_tokensFrom]
  · rw [directives_append_of_ending shape, tokenize, inBehind, directivesAmong_tokensFrom]

end

/-! ## Beginnings of directives -/

/-- The beginning of a directive: its braces, its word and blanks behind that. -/
inductive Opening (opening word : Text) : Prop where
  | braced (blanks spaces : Text) (split : opening = openBraces ++ blanks ++ word ++ spaces)
      (blank : ∀ c ∈ blanks, Text.isBlank c = true)
      (spaceBlank : ∀ c ∈ spaces, Text.isBlank c = true) (nonempty : word ≠ [])
      (wordChars : ∀ c ∈ word, Text.isWordChar c = true)

/-- The text ends in the beginning of a directive. -/
def Unfinished (front : Text) : Prop :=
  ∃ before opening word, front = before ++ opening ∧ Opening opening word

/-- What stands in front of a directive on a line of its own. -/
def margin : Text :=
  "\n    ".toList

theorem isBlank_of_mem_margin : ∀ c ∈ margin, Text.isBlank c = true :=
  List.all_eq_true.1 rfl

section

variable {front before inner behind opening lexeme word arguments word' arguments' : Text}

namespace Opening

/-- No braces stand behind those at the front. -/
theorem exists_rest (isOpening : Opening opening word) :
    ∃ rest, opening = openBraces ++ rest ∧ '\x7b' ∉ rest ∧ '\x7d' ∉ rest := by
  obtain ⟨blanks, spaces, rfl, blank, spaceBlank, _, wordChars⟩ := isOpening
  refine ⟨blanks ++ word ++ spaces, by simp only [List.append_assoc], ?_, ?_⟩
  all_goals
    simp only [List.mem_append, not_or]
    refine ⟨⟨fun isIn => ?_, fun isIn => ?_⟩, fun isIn => ?_⟩
    · exact absurd (blank _ isIn) (by decide)
    · exact absurd (wordChars _ isIn) (by decide)
    · exact absurd (spaceBlank _ isIn) (by decide)

theorem exists_getLast (isOpening : Opening opening word) : ∃ c ∈ opening.getLast?,
    Text.isBlank c = true ∨ Text.isWordChar c = true := by
  obtain ⟨blanks, spaces, rfl, _, spaceBlank, nonempty, wordChars⟩ := isOpening
  by_cases atWord : spaces = []
  · refine ⟨word.getLast nonempty, ?_, .inr (wordChars _ (List.getLast_mem nonempty))⟩
    rw [atWord, List.append_nil, List.getLast?_append_of_ne_nil _ nonempty]
    exact List.getLast?_eq_some_getLast nonempty
  · refine ⟨spaces.getLast atWord, ?_, .inl (spaceBlank _ (List.getLast_mem atWord))⟩
    rw [List.getLast?_append_of_ne_nil _ atWord]
    exact List.getLast?_eq_some_getLast atWord

/-- The beginning of a directive is not the end of another one. -/
theorem eq_nil_of_append (isOpening : Opening opening word)
    (isLonger : Opening (inner ++ opening) word') : inner = [] := by
  obtain ⟨rest, rfl, _⟩ := isOpening.exists_rest
  obtain ⟨rest', same, free, _⟩ := isLonger.exists_rest
  match inner, same with
  | [], _ => rfl
  | [c], same =>
    have same' : '\x7b' :: rest = rest' := (List.cons.inj (List.cons.inj same).2).2
    exact absurd (same' ▸ List.mem_cons_self) free
  | c :: d :: inner, same =>
    have same' : inner ++ (openBraces ++ rest) = rest' := (List.cons.inj (List.cons.inj same).2).2
    exact absurd (same' ▸ List.mem_append_right _ List.mem_cons_self) free

/-- The beginning goes on over a directive on the next line and ends where that ends. -/
theorem directiveShape_append (isOpening : Opening opening word)
    (shape : DirectiveShape lexeme word' arguments) (oneLine : '\n' ∉ lexeme) :
    ∃ inside, lexeme = inside ++ closeBraces ∧
      DirectiveShape (opening ++ (margin ++ lexeme)) word (Text.trim inside) := by
  obtain ⟨blanks, spaces, rfl, blank, spaceBlank, nonempty, wordChars⟩ := isOpening
  obtain ⟨inside, rfl⟩ := shape.closeBraces_suffix
  have spaces' : ∀ c ∈ spaces ++ margin, Text.isBlank c = true := by
    intro c isIn
    rcases List.mem_append.1 isIn with isIn | isIn
    · exact spaceBlank c isIn
    · exact isBlank_of_mem_margin c isIn
  refine ⟨inside, rfl, .braced blanks (spaces ++ margin ++ inside)
    (by simp only [List.append_assoc]) blank nonempty wordChars ?_ ?_ ?_ ?_⟩
  · intro c isFirst
    rw [List.head?_append_of_ne_nil _ (by simp [margin])] at isFirst
    exact Text.not_isWordChar_of_isBlank (spaces' c (List.mem_of_mem_head? isFirst))
  · refine .append_left (by decide) ?_ fun front behind same => shape.eq_nil_of_closeBraces same
    rintro c isFirst isIn
    cases isFirst
    exact absurd (spaces' _ isIn) (by decide)
  · rw [← Text.trim_append spaces']
    exact Text.trims_trim _
  · obtain ⟨left, right, split, _⟩ := Text.trims_trim inside
    intro isIn
    refine oneLine (List.mem_append_left _ ?_)
    rw [split]
    exact List.mem_append_left _ (List.mem_append_right _ isIn)

end Opening

/-- No directive is begun in front of a character that is neither blank nor part of a word. -/
theorem not_unfinished {c : Char} (last : front.getLast? = some c)
    (visible : Text.isBlank c = false) (noWord : Text.isWordChar c = false) :
    ¬ Unfinished front := by
  rintro ⟨before, opening, word, rfl, isOpening⟩
  obtain ⟨d, isLast, isEither⟩ := isOpening.exists_getLast
  rw [List.getLast?_append, Option.mem_def.1 isLast, Option.some_or] at last
  cases last
  rw [visible, noWord] at isEither
  exact isEither.elim Bool.false_ne_true Bool.false_ne_true

/-- The line break does not stand in front of the end of a word, for opening braces follow it. -/
theorem eq_nil_of_margin {blanks more rest : Text} (blank : ∀ c ∈ blanks, Text.isBlank c = true)
    (nonempty : word ≠ []) (wordChars : ∀ c ∈ word, Text.isWordChar c = true)
    (ends : openBraces ++ blanks ++ word = front ++ inner)
    (begins : margin ++ (openBraces ++ more) = inner ++ rest) : inner = [] := by
  by_contra isThere
  have last := congrArg List.getLast? ends
  rw [List.getLast?_append_of_ne_nil _ nonempty, List.getLast?_append_of_ne_nil _ isThere] at last
  have isWord := wordChars _ (List.mem_of_getLast? (List.getLast?_eq_some_getLast nonempty))
  have inWord : word.getLast nonempty ∈ inner :=
    List.mem_of_getLast? (last ▸ List.getLast?_eq_some_getLast nonempty)
  have notMargin : word.getLast nonempty ∉ margin := by
    intro isIn
    rw [Text.not_isWordChar_of_isBlank (isBlank_of_mem_margin _ isIn)] at isWord
    cases isWord
  -- So `inner` reaches over the margin, to braces that would stand in front of the word's end.
  rcases List.append_eq_append_iff.1 begins with ⟨later, rfl, braces⟩ | ⟨later, within, _⟩
  · match later, braces with
    | [], _ => exact notMargin (by rwa [List.append_nil] at inWord)
    | c :: later, braces =>
      obtain rfl : '\x7b' = c := (List.cons.inj braces).1
      have free : '\x7b' ∉ blanks ++ word := by
        rw [List.mem_append, not_or]
        exact ⟨fun isIn => absurd (blank _ isIn) (by decide),
          fun isIn => absurd (wordChars _ isIn) (by decide)⟩
      rw [List.append_assoc] at ends
      match front, ends with
      | [], ends => exact absurd (List.cons.inj ends).1 (by decide)
      | [_], ends => exact absurd (List.cons.inj (List.cons.inj ends).2).1 (by decide)
      | _ :: _ :: front, ends =>
        have same : blanks ++ word = front ++ (margin ++ '\x7b' :: later) :=
          (List.cons.inj (List.cons.inj ends).2).2
        rw [same] at free
        exact free (by simp)
  · exact notMargin (within ▸ List.mem_append_left _ inWord)

/-- A line break in a directive stands right behind its word, if opening braces follow it. -/
theorem opening_of_shape (shape : DirectiveShape (front ++ (margin ++ lexeme)) word arguments)
    (opens : openBraces <+: lexeme) : Opening front word := by
  obtain ⟨blanks, between, split, blank, nonempty, wordChars, _, _, trims, oneLine⟩ := shape
  obtain ⟨more, rfl⟩ := opens
  obtain ⟨left, right, rfl, leftBlank, rightBlank, _⟩ := trims
  have split' : front ++ (margin ++ (openBraces ++ more))
      = (openBraces ++ blanks ++ word) ++ (left ++ (arguments ++ (right ++ closeBraces))) := by
    rw [split]
    simp only [List.append_assoc]
  obtain ⟨spaces, rfl, rest⟩ : ∃ spaces, front = openBraces ++ blanks ++ word ++ spaces ∧
      left ++ (arguments ++ (right ++ closeBraces))
        = spaces ++ (margin ++ (openBraces ++ more)) := by
    rcases List.append_eq_append_iff.1 split' with ⟨inner, ends, begins⟩ | behindWord
    · obtain rfl := eq_nil_of_margin blank nonempty wordChars ends begins
      exact ⟨[], by rw [ends, List.append_nil, List.append_nil], begins.symm⟩
    · exact behindWord
  refine .braced blanks spaces rfl blank ?_ nonempty wordChars
  -- Neither the arguments hold a line break, nor does what stands behind them open braces.
  have shut : '\x7b' ∉ right ++ closeBraces := by
    rw [List.mem_append, not_or]
    exact ⟨fun isIn => absurd (rightBlank _ isIn) (by decide), by decide⟩
  have opened : '\x7b' ∈ margin ++ (openBraces ++ more) :=
    List.mem_append_right _ List.mem_cons_self
  rcases List.append_eq_append_iff.1 rest with ⟨later, rfl, beyond⟩ | ⟨later, rfl, _⟩
  · exfalso
    rcases List.append_eq_append_iff.1 beyond with ⟨late, _, ends⟩ | ⟨early, rfl, begins⟩
    · exact shut (ends ▸ List.mem_append_right _ opened)
    · cases early with
      | nil => exact shut (by rw [List.nil_append] at begins; exact begins ▸ opened)
      | cons c early =>
        have isBreak : '\n' = c := (List.cons.inj begins).1
        exact oneLine (isBreak ▸ List.mem_append_right _ List.mem_cons_self)
  · exact fun c isIn => leftBlank c (List.mem_append_left _ isIn)

end

/-! ## The line of a directive -/

/-- A source has a token from byte `start` on that reads as a directive, between the directives of
two texts. -/
structure Adds (source front behind : Text) (start : Nat) (lexeme word arguments : Text)
    (index : Nat) (token : Token) : Prop where
  found : (tokenize source)[index]? = some token
  starts : token.start = start
  stops : token.stop = start + Text.byteLength lexeme
  reads : token.Reads lexeme word arguments
  inFront : directivesAmong ((tokenize source).take index) = directives front
  inBehind : directivesAmong ((tokenize source).drop (index + 1)) = directives behind

section

variable {source source' front front' behind behind' lexeme word arguments : Text}
  {start index : Nat} {token : Token}

theorem Adds.of_eq (adds : Adds source front behind start lexeme word arguments index token)
    (same : source = source') (sameFront : directives front = directives front')
    (sameBehind : directives behind = directives behind') :
    Adds source' front' behind' start lexeme word arguments index token := by
  subst same
  exact { adds with
    inFront := adds.inFront.trans sameFront
    inBehind := adds.inBehind.trans sameBehind }

theorem Adds.directives_eq
    (adds : Adds source front behind start lexeme word arguments index token) :
    directives source = directives front ++ (directivesAmong [token] ++ directives behind) := by
  obtain ⟨isShort, here⟩ := List.getElem?_eq_some_iff.1 adds.found
  rw [← adds.inFront, ← adds.inBehind, ← directivesAmong_append, ← directivesAmong_append, ← here,
    List.singleton_append, ← List.drop_eq_getElem_cons isShort, List.take_append_drop]
  rfl

/-- A directive is a token unless one that begins earlier ends with it. -/
theorem exists_adds (shape : DirectiveShape lexeme word arguments)
    (unreached : ∀ before inner word' arguments', front = before ++ inner → inner ≠ [] →
      ¬ DirectiveShape (inner ++ lexeme) word' arguments') (behind : Text) :
    ∃ index token, Adds (front ++ (lexeme ++ behind)) front behind (Text.byteLength front) lexeme
      word arguments index token := by
  have recognises := recognises_tokensFrom 0 (front ++ (lexeme ++ behind))
  have stands : DirectiveAt 0 (front ++ (lexeme ++ behind)) (Text.byteLength front) lexeme word
      arguments := .within front behind rfl (Nat.zero_add _).symm shape
  -- What begins earlier and reaches into the directive would have to end with it.
  have free : ∀ start' stop', (∃ other ∈ tokenize (front ++ (lexeme ++ behind)),
      other.IsMatch 0 (front ++ (lexeme ++ behind)) ∧ other.start = start' ∧ other.stop = stop') →
        start' < Text.byteLength front → stop' ≤ Text.byteLength front := by
    rintro _ _ ⟨other, _, ⟨whole, word', arguments', there, ends⟩, rfl, rfl⟩ earlier
    obtain ⟨before, after, split, begins, shape'⟩ := there
    by_contra reaches
    obtain ⟨inner, nonempty, inFront, rfl⟩ := shape.eq_append_of_reaches shape' split.symm
      (by omega) (by rw [Text.byteLength_append]; omega)
    exact unreached before inner word' arguments' inFront nonempty shape'
  obtain ⟨token, isIn, isMatch, starts, stops⟩ := (recognises.leftmost (Text.byteLength front)
    (Text.byteLength front + Text.byteLength lexeme)).2
      ⟨⟨lexeme, word, arguments, stands, rfl⟩, free⟩
  obtain ⟨index, here⟩ := List.mem_iff_getElem?.1 isIn
  obtain ⟨before, other, word', arguments', after, split, shape', starts', stops', inFront, _,
    inBehind⟩ := partsAt_of_getElem? 0 _ index token here isMatch
  -- The token begins where the directive does, so that it covers this one and no other.
  obtain ⟨middle, rfl, rest⟩ := Text.exists_middle_of_byteLength_le split (by omega)
  rw [Text.byteLength_append] at starts'
  obtain rfl : middle = [] := Text.byteLength_eq_zero.1 (by omega)
  obtain ⟨rfl, _, _, rfl⟩ := shape.unique shape' rest
  refine ⟨index, token, here, starts, stops, ?_, ?_, ?_⟩
  · exact recognises.reads token isIn _ _ _ (starts ▸ stands) (by omega)
  · rw [tokenize, inFront, directivesAmong_tokensFrom, List.append_nil]
  · rw [tokenize, inBehind, directivesAmong_tokensFrom]

/-- A source into which a directive is put on a line of its own. -/
structure PutsOnLine (front lexeme word arguments behind : Text) : Prop where
  /-- The directive is added, unless one is begun in front of it. -/
  added : ¬ Unfinished front → ∃ index token,
    Adds (front ++ (margin ++ lexeme ++ ['\n'] ++ behind)) front behind
      (Text.byteLength (front ++ margin)) lexeme word arguments index token
  /-- What is begun in front of it takes it in. -/
  swallowed : ∀ before opening word', front = before ++ opening → Opening opening word' →
    ∃ inside index token, lexeme = inside ++ closeBraces ∧
      Adds (front ++ (margin ++ lexeme ++ ['\n'] ++ behind)) front behind (Text.byteLength before)
        (opening ++ (margin ++ lexeme)) word' (Text.trim inside) index token
  /-- Where none reached over the place, the directives in front of it and behind it are those from
  before. -/
  kept : (∀ token ∈ tokenize (front ++ behind), token.IsMatch 0 (front ++ behind) →
      token.stop ≤ Text.byteLength front ∨ Text.byteLength front ≤ token.start) →
    directives front ++ directives behind = directives (front ++ behind)
  /-- A directive that it is put into is lost, and what it held can hold others. -/
  torn : ∀ index token, (tokenize (front ++ behind))[index]? = some token →
    token.IsMatch 0 (front ++ behind) → token.start < Text.byteLength front →
    Text.byteLength front < token.stop →
    directives front = directivesAmong ((tokenize (front ++ behind)).take index) ∧
      ∃ inner, inner <:+ token.lexeme (front ++ behind) ∧
        directives behind
          = directives inner ++ directivesAmong ((tokenize (front ++ behind)).drop (index + 1))

theorem directives_margin (front : Text) : directives (front ++ margin) = directives front :=
  directives_append_of_unclosed (by decide) (by decide) front

theorem directives_line_break (behind : Text) : directives (['\n'] ++ behind) = directives behind :=
  directives_append_of_unopened (by decide) nofun

theorem Opening.directives_append {opening : Text} (isOpening : Opening opening word)
    (front : Text) : directives (front ++ opening) = directives front := by
  obtain ⟨rest, rfl, _, unclosed⟩ := isOpening.exists_rest
  have free : '\x7d' ∉ openBraces ++ rest := by
    rw [List.mem_append, not_or]
    exact ⟨by decide, unclosed⟩
  refine directives_append_of_unclosed (fun within => free ?_) (fun first => ?_) front
  · exact within.subset List.mem_cons_self
  · exact free (List.mem_of_mem_head? first)

theorem putsOnLine (shape : DirectiveShape lexeme word arguments) (oneLine : '\n' ∉ lexeme)
    (front behind : Text) : PutsOnLine front lexeme word arguments behind where
  added unbegun := by
    have unreached : ∀ before inner word' arguments', front ++ margin = before ++ inner →
        inner ≠ [] → ¬ DirectiveShape (inner ++ lexeme) word' arguments' := by
      intro before inner word' arguments' split nonempty longer
      rcases List.append_eq_append_iff.1 split with ⟨blanks, _, isMargin⟩ | ⟨inner, rfl, rfl⟩
      · -- A directive does not begin with a blank.
        obtain ⟨c, inner, rfl⟩ := List.exists_cons_of_ne_nil nonempty
        have isOpen : c = '\x7b' := longer.eq_of_cons
        have isIn : c ∈ margin := isMargin ▸ List.mem_append_right _ List.mem_cons_self
        exact absurd (isOpen ▸ isIn) (by decide)
      · rw [List.append_assoc] at longer
        exact unbegun ⟨_, _, _, rfl, opening_of_shape longer shape.openBraces_prefix⟩
    obtain ⟨index, token, adds⟩ := exists_adds shape unreached (['\n'] ++ behind)
    exact ⟨index, token, adds.of_eq (by simp only [List.append_assoc]) (directives_margin front)
      (directives_line_break behind)⟩
  swallowed := by
    rintro before opening word' rfl isOpening
    obtain ⟨inside, ends, longer⟩ := isOpening.directiveShape_append shape oneLine
    have unreached : ∀ first inner word' arguments', before = first ++ inner → inner ≠ [] →
        ¬ DirectiveShape (inner ++ (opening ++ (margin ++ lexeme))) word' arguments' := by
      intro first inner word' arguments' _ nonempty earlier
      rw [← List.append_assoc] at earlier
      exact nonempty (isOpening.eq_nil_of_append
        (opening_of_shape earlier shape.openBraces_prefix))
    obtain ⟨index, token, adds⟩ := exists_adds longer unreached (['\n'] ++ behind)
    exact ⟨inside, index, token, ends, adds.of_eq (by simp only [List.append_assoc])
      (isOpening.directives_append before).symm (directives_line_break behind)⟩
  kept parted := (directives_append_of_parted 0 front behind fun token isIn isMatch => by
    rw [Nat.zero_add]
    exact parted token isIn isMatch).symm
  torn index token here isMatch starts stops := directives_of_straddled here isMatch starts stops

end

end StaticSite
