import StaticSite.Token

/-!
# Scanning source into tokens

A directive is two opening braces, optional blanks, a word, anything up to the first two
closing braces after the word; what stands between, trimmed, is its argument text and holds no
newline.  Source that has this shape with an unknown word is a raw token of its own.  Opening
braces that start no directive are ordinary text, and the search resumes one character later.
-/

namespace StaticSite

/-- Two opening braces. -/
def openBraces : Text := ['\x7b', '\x7b']

/-- Two closing braces. -/
def closeBraces : Text := ['\x7d', '\x7d']

/-- Source of directive shape, found behind its opening braces. -/
structure DirectiveMatch where
  /-- The word after the opening braces. -/
  word : Text
  /-- The trimmed text between the word and the closing braces. -/
  arguments : Text
  /-- Everything from the opening to the closing braces. -/
  lexeme : Text
  /-- What follows the closing braces. -/
  rest : Text

namespace DirectiveMatch

/-- Recognises a directive whose opening braces have just been read. -/
def ofBody? (body : Text) : Option DirectiveMatch := do
  let blanks := body.takeWhile Text.isBlank
  let afterBlanks := body.dropWhile Text.isBlank
  let word := afterBlanks.takeWhile Text.isWordChar
  if word = [] then none
  let (between, rest) ← Text.cut closeBraces (afterBlanks.dropWhile Text.isWordChar)
  let arguments := Text.trim between
  if '\n' ∈ arguments then none
  some {
    word, arguments, rest
    lexeme := openBraces ++ blanks ++ word ++ between ++ closeBraces }

/-- The token of a match that begins at byte `start`. -/
def token (found : DirectiveMatch) (start : Nat) : Token :=
  match TokenKind.ofKeyword? found.word with
  | some kind =>
      { kind
        content := if kind.takesArguments then found.arguments else []
        start
        stop := start + Text.byteLength found.lexeme }
  | none => .rawAt start found.lexeme

theorem length_rest_lt {body : Text} {found : DirectiveMatch}
    (matched : ofBody? body = some found) : found.rest.length < body.length := by
  unfold ofBody? at matched
  simp only [Option.bind_eq_bind] at matched
  split at matched
  · simp at matched
  · obtain ⟨⟨between, rest⟩, closed, matched⟩ := Option.bind_eq_some_iff.1 matched
    dsimp only at matched
    split at matched
    · simp at matched
    · simp only [Option.some.injEq] at matched
      subst matched
      have shorter := Text.length_lt_of_cut (by decide) closed
      have afterWord := (List.dropWhile_suffix Text.isWordChar
        (l := body.dropWhile Text.isBlank)).length_le
      have afterBlanks := (List.dropWhile_suffix Text.isBlank (l := body)).length_le
      dsimp only
      omega

end DirectiveMatch

/-- The first directive-shaped part of a text, with the raw text before it. -/
def nextMatch? : Text → Option (Text × DirectiveMatch)
  | [] => none
  | [_] => none
  | first :: second :: rest =>
      let later := (nextMatch? (second :: rest)).map fun (before, found) =>
        (first :: before, found)
      if first = '\x7b' ∧ second = '\x7b' then
        match DirectiveMatch.ofBody? rest with
        | some found => some ([], found)
        | none => later
      else later

theorem length_rest_lt_of_nextMatch? {text before : Text} {found : DirectiveMatch}
    (next : nextMatch? text = some (before, found)) : found.rest.length < text.length := by
  induction text generalizing before with
  | nil => simp [nextMatch?] at next
  | cons first tail ih =>
      cases tail with
      | nil => simp [nextMatch?] at next
      | cons second rest =>
          have later : ∀ result, ((nextMatch? (second :: rest)).map fun (before, found) =>
              (first :: before, found)) = some (result, found) →
              found.rest.length < (first :: second :: rest).length := by
            intro result same
            obtain ⟨⟨inner, other⟩, found', equal⟩ := Option.map_eq_some_iff.1 same
            simp only [Prod.mk.injEq] at equal
            obtain ⟨_, rfl⟩ := equal
            exact Nat.lt_succ_of_lt (ih found')
          unfold nextMatch? at next
          split at next
          · split at next
            · next matched =>
                simp only [Option.some.injEq, Prod.mk.injEq] at next
                obtain ⟨_, rfl⟩ := next
                have := DirectiveMatch.length_rest_lt matched
                simp only [List.length_cons]
                omega
            · exact later _ next
          · exact later _ next

/-- A raw token, unless there is nothing to hold. -/
def rawTokens (start : Nat) (html : Text) : List Token :=
  if html = [] then [] else [.rawAt start html]

/-- The tokens of a text that begins at byte `start` of the source. -/
def tokensFrom (start : Nat) (text : Text) : List Token :=
  match _ : nextMatch? text with
  | none => rawTokens start text
  | some (before, found) =>
      let token := found.token (start + Text.byteLength before)
      rawTokens start before ++ token :: tokensFrom token.stop found.rest
  termination_by text.length
  decreasing_by exact length_rest_lt_of_nextMatch? ‹_›

/-- The tokens of a whole source. -/
def tokenize (source : Text) : List Token :=
  tokensFrom 0 source

end StaticSite
