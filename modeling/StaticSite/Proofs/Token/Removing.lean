import StaticSite.Proofs.Token.Positions
import StaticSite.Proofs.Token.Resuming

/-!
# Sources without one of their tokens

What stands on the two sides of a directive that is taken out is joined, and may make up other
directives.  These reach neither over the directive before nor over the one behind, where the
scanner is in step again.
-/

namespace StaticSite

/-- A source from which the token at an index is taken out, and the tokens that it has then. -/
structure Removes (source : Text) (index : Nat) (token : Token) (edited : Text) : Prop where
  cutsOut : ∃ front lexeme behind, source = front ++ (lexeme ++ behind) ∧
    token.start = Text.byteLength front ∧
    token.stop = Text.byteLength front + Text.byteLength lexeme ∧ edited = front ++ behind
  /-- Nothing changes up to a directive in front of the token. -/
  inFront : ∀ left other, left < index → (tokenize source)[left]? = some other →
    other.IsMatch 0 source → (tokenize source).take (left + 1) <+: tokenize edited
  /-- Nothing but positions changes from a directive behind the token on. -/
  inBehind : ∀ right other, index < right → (tokenize source)[right]? = some other →
    other.IsMatch 0 source → ∃ later, later <:+ tokenize edited ∧
      (tokenize source).drop (right + 1) = later.map (Token.moveBy (token.stop - token.start))
  /-- The other directives stay, unless what stands between the directive before and the token opens
  braces. -/
  directives : ∀ resume gap, (resume = 0 ∨ ∃ left other, left < index ∧
      (tokenize source)[left]? = some other ∧ other.IsMatch 0 source ∧ other.stop = resume) →
    source.slice resume token.start = .ok gap → ¬ openBraces <:+: gap →
    gap.getLast? ≠ some '\x7b' →
    directives edited = directivesAmong ((tokenize source).eraseIdx index)

section

variable {source front lexeme word arguments behind gap : Text} {index : Nat} {token : Token}

/-- What is taken out of a text between two parts of it. -/
theorem Token.removeFrom_append (starts : token.start = Text.byteLength front)
    (stops : token.stop = Text.byteLength front + Text.byteLength lexeme) (behind : Text) :
    token.removeFrom (front ++ (lexeme ++ behind)) = front ++ behind := by
  have dropped := Text.dropBytes_append (front ++ lexeme) behind
  rw [List.append_assoc, Text.byteLength_append] at dropped
  rw [removeFrom, starts, stops, Text.takeBytes_append, dropped]

/-- Of the tokens on the two sides of a directive, those behind it begin behind it. -/
theorem le_start_of_lt {origin other : Nat} {text : Text} {first later : Token}
    (first_at : (tokensFrom origin text)[index]? = some first) (isMatch : first.IsMatch origin text)
    (later_at : (tokensFrom origin text)[other]? = some later) (before : index < other) :
    first.stop ≤ later.start := by
  obtain ⟨front, lexeme, word, arguments, behind, _, _, _, _, _, _, inBehind⟩ :=
    partsAt_of_getElem? origin text index first first_at isMatch
  have there : (tokensFrom first.stop behind)[other - (index + 1)]? = some later := by
    rw [← inBehind, List.getElem?_drop, ← later_at]
    congr 1
    omega
  exact le_start_of_mem_tokensFrom later (List.mem_of_getElem? there)

/-- A directive in front of a token settles the scanner, and its tokens end there. -/
theorem exists_settled_of_lt {left : Nat} {other : Token} {rest : Text} (isBefore : left < index)
    (there : (tokenize source)[left]? = some other) (isMatch : other.IsMatch 0 source)
    (here : (tokenize source)[index]? = some token) (split : source = front ++ rest)
    (starts : token.start = Text.byteLength front) :
    ∃ settled gap, front = settled ++ gap ∧ Settles settled ∧
      other.stop = Text.byteLength settled ∧
      (tokenize source).take (left + 1) = tokenize settled := by
  obtain ⟨before, lexeme, word, arguments, behind, split', shape, starts', stops', _, through, _⟩ :=
    partsAt_of_getElem? 0 source left other there isMatch
  have apart := le_start_of_lt there isMatch here isBefore
  have ends : other.stop = Text.byteLength (before ++ lexeme) := by
    rw [stops', starts', Nat.zero_add, Text.byteLength_append]
  have whole : (before ++ lexeme) ++ behind = front ++ rest := by
    rw [← split, split', List.append_assoc]
  obtain ⟨gap, same, _⟩ := Text.exists_middle_of_byteLength_le whole (by omega)
  exact ⟨before ++ lexeme, gap, same, settles_of_shape shape before, ends, through⟩

/-- The directives of a text that is joined at a gap that opens no braces. -/
theorem directives_append_gap {settled : Text} (settles : Settles settled)
    (unopened : ¬ openBraces <:+: gap) (seam : gap.getLast? ≠ some '\x7b') (behind : Text) :
    directives (settled ++ gap ++ behind) = directives (settled ++ gap) ++ directives behind := by
  have passed : ∀ rest, directives (gap ++ rest) = directives rest :=
    fun rest => directives_append_of_unopened unopened fun last => absurd last seam
  have alone := passed []
  rw [List.append_nil, directives_nil] at alone
  rw [List.append_assoc, settles.directives_append, settles.directives_append, passed, alone,
    List.append_nil]

theorem removes_of_isMatch (here : (tokenize source)[index]? = some token)
    (isMatch : token.IsMatch 0 source) :
    Removes source index token (token.removeFrom source) := by
  obtain ⟨front, lexeme, word, arguments, behind, split, shape, starts, stops, inFront, through,
    inBehind⟩ := partsAt_of_getElem? 0 source index token here isMatch
  rw [Nat.zero_add] at starts
  have edited : token.removeFrom source = front ++ behind := by
    rw [split]
    exact Token.removeFrom_append starts (stops.trans (starts ▸ rfl)) behind
  rw [edited]
  refine ⟨⟨front, lexeme, behind, split, starts, stops.trans (starts ▸ rfl), rfl⟩, ?_, ?_, ?_⟩
  · -- The directive in front settles the scanner before the gap, whatever comes behind it.
    intro left other isBefore there isMatch'
    obtain ⟨settled, gap, rfl, settles, _, through'⟩ :=
      exists_settled_of_lt isBefore there isMatch' here split starts
    rw [through', List.append_assoc]
    exact ⟨_, (settles 0 (gap ++ behind)).symm⟩
  · -- The later directive settles it again, so that what is behind has its old tokens, only
    -- earlier.
    intro right other isBehind there isMatch'
    obtain ⟨front', lexeme', word', arguments', behind', split', shape', starts', stops', _, _,
      inBehind'⟩ := partsAt_of_getElem? 0 source right other there isMatch'
    have apart := le_start_of_lt here isMatch there isBehind
    have whole : (front ++ lexeme) ++ behind = front' ++ (lexeme' ++ behind') := by
      rw [← split', split, List.append_assoc]
    obtain ⟨middle, rfl, rfl⟩ := Text.exists_middle_of_byteLength_le whole
      (by rw [Text.byteLength_append]; omega)
    have settles := settles_of_shape shape' (front ++ middle) 0 behind'
    refine ⟨tokensFrom (0 + Text.byteLength (front ++ middle ++ lexeme')) behind', ?_, ?_⟩
    · rw [tokenize, ← List.append_assoc middle, ← List.append_assoc, ← List.append_assoc, settles]
      exact List.suffix_append _ _
    · rw [tokenize, inBehind', ← tokensFrom_moveBy]
      congr 1
      simp only [Text.byteLength_append] at starts' ⊢
      omega
  · -- The gap begins where the scanner is settled: at the start, or behind the directive before.
    intro resume gap resumes between unopened seam
    obtain ⟨settled, rfl, settles⟩ : ∃ settled, front = settled ++ gap ∧ Settles settled := by
      rcases resumes with rfl | ⟨left, other, isBefore, there, isMatch', rfl⟩
      · have whole := Text.slice_append [] front (lexeme ++ behind)
        rw [Text.byteLength_nil, Nat.zero_add, ← starts, List.nil_append, ← split, between] at whole
        exact ⟨[], (Except.ok.inj whole).symm, settles_nil⟩
      · obtain ⟨settled, middle, rfl, settles, ends, _⟩ :=
          exists_settled_of_lt isBefore there isMatch' here split starts
        have whole := Text.slice_append settled middle (lexeme ++ behind)
        rw [← Text.byteLength_append, ← starts, ← ends, ← List.append_assoc, ← split, between]
          at whole
        exact ⟨settled, by rw [Except.ok.inj whole], settles⟩
    rw [directives_append_gap settles unopened seam, List.eraseIdx_eq_take_drop_succ, tokenize,
      inFront, inBehind, directivesAmong_append, directivesAmong_tokensFrom,
      directivesAmong_tokensFrom]

end

end StaticSite
