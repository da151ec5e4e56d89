import StaticSite.Proofs.Text.Cutting
import StaticSite.Token.Scan

/-!
# The shape of directives

Which text is a directive, said as a grammar.  What the scanner recognises behind two opening braces
is exactly such text, and the part that it finds next is the leftmost one.
-/

namespace StaticSite

/-- Text between two opening braces and the first two closing ones behind a word.  The word is as
long as it can be, and what stands behind it, without its blank ends, is on one line. -/
inductive DirectiveShape (lexeme word arguments : Text) : Prop where
  | braced (blanks between : Text)
      (split : lexeme = openBraces ++ blanks ++ word ++ between ++ closeBraces)
      (blank : ∀ c ∈ blanks, Text.isBlank c = true) (nonempty : word ≠ [])
      (wordChars : ∀ c ∈ word, Text.isWordChar c = true)
      (longest : ∀ c ∈ between.head?, Text.isWordChar c = false)
      (closing : Text.FirstBehind closeBraces between) (trims : Text.Trims between arguments)
      (oneLine : '\n' ∉ arguments)

/-- A directive begins the text. -/
def BeginsDirective (text : Text) : Prop :=
  ∃ lexeme word arguments, DirectiveShape lexeme word arguments ∧ lexeme <+: text

theorem Text.not_isBlank_of_isWordChar {c : Char} (isWord : Text.isWordChar c = true) :
    Text.isBlank c = false := by
  rw [← Bool.not_eq_true]
  intro isBlank
  simp only [Text.isBlank, Bool.or_eq_true, beq_iff_eq] at isBlank
  rcases isBlank with (((rfl | rfl) | rfl) | rfl) | rfl
  all_goals exact absurd isWord (by decide)

theorem Text.not_isWordChar_of_isBlank {c : Char} (blank : Text.isBlank c = true) :
    Text.isWordChar c = false := by
  rw [Bool.eq_false_iff]
  intro isWord
  rw [Text.not_isBlank_of_isWordChar isWord] at blank
  cases blank

namespace DirectiveMatch

variable {body : Text} {found : DirectiveMatch}

theorem shape_of_ofBody? (matched : ofBody? body = some found) :
    DirectiveShape found.lexeme found.word found.arguments ∧
      openBraces ++ body = found.lexeme ++ found.rest := by
  unfold ofBody? at matched
  simp only [Option.bind_eq_bind] at matched
  split at matched
  · simp at matched
  · next nonempty =>
    obtain ⟨⟨between, rest⟩, closed, matched⟩ := Option.bind_eq_some_iff.1 matched
    obtain ⟨tail, closing⟩ := (Text.cut_eq_some_iff (by decide)).1 closed
    dsimp only at matched
    split at matched
    · simp at matched
    · next oneLine =>
      cases matched
      have blanksFirst : body.takeWhile Text.isBlank ++ body.dropWhile Text.isBlank = body :=
        List.takeWhile_append_dropWhile
      have wordFirst : (body.dropWhile Text.isBlank).takeWhile Text.isWordChar
          ++ (between ++ closeBraces ++ rest) = body.dropWhile Text.isBlank := by
        rw [← tail, List.takeWhile_append_dropWhile]
      refine ⟨.braced _ between rfl (fun c => List.mem_takeWhile_imp) nonempty
        (fun c => List.mem_takeWhile_imp) ?_ closing (Text.trims_trim between) oneLine, ?_⟩
      · -- What the word stops at is the first character behind it, if there is one.
        intro c isFirst
        refine Text.stops_dropWhile Text.isWordChar (body.dropWhile Text.isBlank) c ?_
        rw [tail, List.append_assoc]
        exact List.mem_head?_append_of_mem_head? isFirst
      · conv_lhs => rw [← blanksFirst, ← wordFirst]
        simp only [List.append_assoc]

theorem ofBody?_of_shape {lexeme word arguments rest : Text}
    (shape : DirectiveShape lexeme word arguments) (split : openBraces ++ body = lexeme ++ rest) :
    ofBody? body = some { word, arguments, lexeme, rest } := by
  obtain ⟨blanks, between, rfl, blank, nonempty, wordChars, longest, closing, trims, oneLine⟩ :=
    shape
  simp only [List.append_assoc, List.append_cancel_left_eq] at split
  subst split
  have wordFirst : ∀ c ∈ (word ++ (between ++ (closeBraces ++ rest))).head?,
      Text.isBlank c = false := by
    rw [List.head?_append_of_ne_nil _ nonempty]
    intro c isFirst
    exact Text.not_isBlank_of_isWordChar (wordChars c (List.mem_of_mem_head? isFirst))
  have wordStops : ∀ c ∈ (between ++ (closeBraces ++ rest)).head?, Text.isWordChar c = false := by
    cases between with
    | nil =>
      intro c isFirst
      cases isFirst
      decide
    | cons d more => exact longest
  have closed : Text.cut closeBraces (between ++ (closeBraces ++ rest)) = some (between, rest) :=
    (Text.cut_eq_some_iff (by decide)).2 ⟨by rw [List.append_assoc], closing⟩
  simp only [ofBody?, Text.takeWhile_run blank wordFirst, Text.dropWhile_run blank wordFirst,
    Text.takeWhile_run wordChars wordStops, Text.dropWhile_run wordChars wordStops, nonempty,
    closed, Text.trim_eq_of_trims trims, oneLine, if_false, Option.bind_eq_bind, Option.bind_some]

end DirectiveMatch

section

variable {lexeme word arguments lexeme' word' arguments' behind behind' text : Text}

theorem DirectiveShape.openBraces_prefix (shape : DirectiveShape lexeme word arguments) :
    openBraces <+: lexeme := by
  obtain ⟨blanks, between, rfl, _⟩ := shape
  simp only [List.append_assoc]
  exact List.prefix_append _ _

theorem DirectiveShape.eq_of_cons {c : Char}
    (shape : DirectiveShape (c :: text) word arguments) : c = '\x7b' := by
  obtain ⟨body, opening⟩ := shape.openBraces_prefix
  exact (List.cons.inj opening).1.symm

theorem DirectiveShape.ne_nil (shape : DirectiveShape lexeme word arguments) : lexeme ≠ [] := by
  rintro rfl
  exact absurd (List.prefix_nil.1 shape.openBraces_prefix) (by decide)

/-- At one place in a text there is one directive at most, and it reads one way. -/
theorem DirectiveShape.unique (shape : DirectiveShape lexeme word arguments)
    (shape' : DirectiveShape lexeme' word' arguments')
    (same : lexeme ++ behind = lexeme' ++ behind') :
    lexeme = lexeme' ∧ word = word' ∧ arguments = arguments' ∧ behind = behind' := by
  obtain ⟨body, split⟩ := shape.openBraces_prefix.trans (List.prefix_append lexeme behind)
  have first := DirectiveMatch.ofBody?_of_shape shape split
  have second := DirectiveMatch.ofBody?_of_shape shape' (split.trans same)
  rw [first] at second
  simp only [Option.some.injEq, DirectiveMatch.mk.injEq] at second
  exact ⟨second.2.2.1, second.1, second.2.1, second.2.2.2⟩

theorem beginsDirective_iff : BeginsDirective text ↔
    ∃ body found, text = openBraces ++ body ∧ DirectiveMatch.ofBody? body = some found := by
  constructor
  · rintro ⟨lexeme, word, arguments, shape, behind, rfl⟩
    obtain ⟨body, split⟩ := shape.openBraces_prefix.trans (List.prefix_append lexeme behind)
    exact ⟨body, _, split.symm, DirectiveMatch.ofBody?_of_shape shape split⟩
  · rintro ⟨body, found, rfl, matched⟩
    obtain ⟨shape, split⟩ := DirectiveMatch.shape_of_ofBody? matched
    exact ⟨_, _, _, shape, found.rest, split.symm⟩

end

/-! ## The next directive -/

section

variable {text before rest : Text} {found : DirectiveMatch} {c : Char}

theorem nextMatch?_of_ofBody? (matched : DirectiveMatch.ofBody? rest = some found) :
    nextMatch? (openBraces ++ rest) = some ([], found) := by
  show nextMatch? ('\x7b' :: '\x7b' :: rest) = _
  rw [nextMatch?]
  simp only [and_self, if_true, matched]

theorem nextMatch?_of_not_begins (none : ¬ BeginsDirective (c :: rest)) :
    nextMatch? (c :: rest)
      = (nextMatch? rest).map fun (before, found) => (c :: before, found) := by
  cases rest with
  | nil => rfl
  | cons d rest =>
    rw [nextMatch?]
    split
    · next braces =>
      obtain ⟨rfl, rfl⟩ := braces
      cases matched : DirectiveMatch.ofBody? rest with
      | none => rfl
      | some found => exact absurd (beginsDirective_iff.2 ⟨rest, found, rfl, matched⟩) none
    · rfl

theorem not_begins_of_nextMatch? (none : nextMatch? text = none) :
    ∀ front behind, text = front ++ behind → ¬ BeginsDirective behind := by
  induction text with
  | nil =>
    rintro front behind split ⟨lexeme, word, arguments, shape, within⟩
    obtain ⟨rfl, rfl⟩ := List.append_eq_nil_iff.1 split.symm
    exact shape.ne_nil (List.prefix_nil.1 within)
  | cons c rest ih =>
    -- A directive at the front would be found, so that the search goes on in the rest.
    by_cases begins : BeginsDirective (c :: rest)
    · obtain ⟨body, found, split, matched⟩ := beginsDirective_iff.1 begins
      rw [split, nextMatch?_of_ofBody? matched] at none
      cases none
    · rw [nextMatch?_of_not_begins begins, Option.map_eq_none_iff] at none
      intro front behind split
      cases front with
      | nil =>
        rw [List.nil_append] at split
        rw [← split]
        exact begins
      | cons d front => exact ih none front behind (List.cons.inj split).2

/-- What is found next is a directive, and none begins to the left of it. -/
theorem leftmost_of_nextMatch? (next : nextMatch? text = some (before, found)) :
    text = before ++ found.lexeme ++ found.rest ∧
      DirectiveShape found.lexeme found.word found.arguments ∧
      ∀ front behind, text = front ++ behind → BeginsDirective behind →
        before.length ≤ front.length := by
  induction text generalizing before with
  | nil => simp [nextMatch?] at next
  | cons c rest ih =>
    by_cases begins : BeginsDirective (c :: rest)
    · obtain ⟨body, first, split, matched⟩ := beginsDirective_iff.1 begins
      rw [split, nextMatch?_of_ofBody? matched] at next
      cases next
      obtain ⟨shape, whole⟩ := DirectiveMatch.shape_of_ofBody? matched
      exact ⟨split.trans whole, shape, fun _ _ _ _ => Nat.zero_le _⟩
    · rw [nextMatch?_of_not_begins begins] at next
      obtain ⟨⟨inner, later⟩, found', same⟩ := Option.map_eq_some_iff.1 next
      cases same
      obtain ⟨split, shape, leftmost⟩ := ih found'
      refine ⟨by rw [split]; rfl, shape, fun front behind whole begins' => ?_⟩
      cases front with
      | nil =>
        rw [List.nil_append] at whole
        rw [whole] at begins
        exact absurd begins' begins
      | cons d front =>
        exact Nat.succ_le_succ (leftmost front behind (List.cons.inj whole).2 begins')

end

end StaticSite
