import StaticSite.Proofs.Fallible
import StaticSite.Proofs.Text.Encoding
import StaticSite.Proofs.Text.Slicing
import StaticSite.Proofs.Token.Straddling

/-!
# Scanning by byte positions

A scanner that knows its source by byte positions only: it looks at single bytes, moves positions
on and cuts text out in slices.  It yields the tokens of the source one after another, and no slice
is refused on the way.  The spans of the tokens partition the source.
-/

namespace StaticSite

/-! ## The scanner -/

/-- The byte of a space, a tab, a line feed, a form feed or a carriage return. -/
def isBlankByte (byte : UInt8) : Bool :=
  byte == 0x20 || byte == 0x09 || byte == 0x0A || byte == 0x0C || byte == 0x0D

/-- The byte of an ASCII letter, an ASCII digit or the underscore. -/
def isWordByte (byte : UInt8) : Bool :=
  (0x41 ≤ byte && byte ≤ 0x5A) || (0x61 ≤ byte && byte ≤ 0x7A) || (0x30 ≤ byte && byte ≤ 0x39)
    || byte == 0x5F

/-- The first position from `position` on whose byte fails the test, or the end. -/
def skipBytes (test : UInt8 → Bool) (bytes : List UInt8) (position : Nat) : Nat :=
  if inside : position < bytes.length then
    if test bytes[position] then skipBytes test bytes (position + 1) else position
  else position
  termination_by bytes.length - position

/-- A directive that was found in a source. -/
structure FoundDirective where
  start : Nat
  stop : Nat
  word : Text
  arguments : Text

/-- Recognises a directive whose opening braces begin at byte `opening`. -/
def matchAt (source : Text) (opening : Nat) : Except SliceFault (Option FoundDirective) := do
  let bytes := Utf8.encode source
  let wordStart := skipBytes isBlankByte bytes (opening + 2)
  let wordStop := skipBytes isWordByte bytes wordStart
  if wordStop = wordStart then return none
  match Text.position? closeBraces (← source.slice wordStop source.byteLength) with
  | none => return none
  | some offset =>
      let arguments := Text.trim (← source.slice wordStop (wordStop + offset))
      if '\n' ∈ arguments then return none
      return some {
        start := opening
        stop := wordStop + offset + 2
        word := ← source.slice wordStart wordStop
        arguments }

/-- The first directive that begins at byte `start` or later.  Opening braces that begin none are
passed by one byte. -/
def findFrom (source : Text) (start : Nat) : Except SliceFault (Option FoundDirective) :=
  match _ : source.slice start source.byteLength with
  | .error fault => .error fault
  | .ok text =>
      match _ : Text.position? openBraces text with
      | none => .ok none
      | some offset =>
          match matchAt source (start + offset) with
          | .error fault => .error fault
          | .ok (some found) => .ok (some found)
          | .ok none => findFrom source (start + offset + 1)
  termination_by source.byteLength - start
  decreasing_by
    have left := Text.byteLength_of_slice_rest ‹_›
    have fits := Text.byteLength_le_of_position? ‹_›
    have two : Text.byteLength openBraces = 2 := rfl
    omega

/-- The raw token between two bytes of a source. -/
def rawBetween (source : Text) (start stop : Nat) : Except SliceFault Token := do
  return { kind := .raw, content := ← source.slice start stop, start, stop }

/-- The token of a directive that was found. -/
def FoundDirective.token (source : Text) (found : FoundDirective) : Except SliceFault Token :=
  match TokenKind.ofKeyword? found.word with
  | some kind => .ok {
      kind
      content := if kind.takesArguments then found.arguments else []
      start := found.start
      stop := found.stop }
  | none => rawBetween source found.start found.stop

/-- How far a source has been scanned. -/
structure TokenStream where
  /-- The end of what has been scanned. -/
  emitted : Nat := 0
  /-- A directive that waits behind the raw token before it. -/
  pending : Option Token := none

namespace TokenStream

/-- The next token, and the stream behind it. -/
def next (source : Text) (stream : TokenStream) :
    Except SliceFault (Option (Token × TokenStream)) :=
  match stream.pending with
  | some token => return some (token, { stream with pending := none })
  | none =>
      if source.byteLength ≤ stream.emitted then return none
      else do
        match ← findFrom source stream.emitted with
        | some found =>
            let directive ← found.token source
            if stream.emitted < found.start then
              return some (← rawBetween source stream.emitted found.start,
                { emitted := directive.stop, pending := some directive })
            else return some (directive, { emitted := directive.stop })
        | none =>
            return some (← rawBetween source stream.emitted source.byteLength,
              { emitted := source.byteLength })

/-- The stream comes to its end behind the given tokens, with no slice refused. -/
inductive Yields (source : Text) : TokenStream → List Token → Prop where
  | done {stream : TokenStream} (ends : stream.next source = .ok none) : Yields source stream []
  | more {stream later : TokenStream} {token : Token} {tokens : List Token}
      (yields : stream.next source = .ok (some (token, later)))
      (rest : Yields source later tokens) : Yields source stream (token :: tokens)

end TokenStream

/-! ## Bytes against characters -/

theorem Utf8.encode_append (front behind : Text) :
    encode (front ++ behind) = encode front ++ encode behind :=
  List.flatMap_append

theorem Utf8.length_encode (text : Text) : (encode text).length = Text.byteLength text := by
  induction text with
  | nil => rfl
  | cons c rest ih =>
    rw [encode, List.flatMap_cons, List.length_append, String.length_utf8EncodeChar, ← encode, ih,
      Text.byteLength]

section

variable {test : UInt8 → Bool} {testChar : Char → Bool} {text : Text} {c : Char}

/-- The test of a byte tells whether it is the only byte of a character that passes the other
test. -/
def TestsBytesOf (test : UInt8 → Bool) (testChar : Char → Bool) : Prop :=
  ∀ c, ∃ first more, String.utf8EncodeChar c = first :: more ∧ test first = testChar c ∧
    (testChar c = true → more = [])

/-- Characters that take several bytes begin with a byte that is no character of its own. -/
theorem exists_lead_of_not_ascii (wide : ¬ c.toNat < 128) :
    ∃ first more, String.utf8EncodeChar c = first :: more ∧ 128 ≤ first := by
  have large : ∀ n, 128 ≤ n → n < 256 → 128 ≤ UInt8.ofNat n :=
    fun n above small => (Utf8.ofNat_le_iff (by decide) small).2 above
  have notOne : ¬ c.toNat ≤ 127 := by omega
  have encoded : String.utf8EncodeChar c = _ := rfl
  unfold String.utf8EncodeChar at encoded
  rw [show c.val.toNat = c.toNat from rfl] at encoded
  by_cases two : c.toNat ≤ 2047
  · exact ⟨_, _, encoded.trans ((if_neg notOne).trans (if_pos two)),
      large _ (by omega) (by omega)⟩
  · by_cases three : c.toNat ≤ 65535
    · exact ⟨_, _, encoded.trans ((if_neg notOne).trans ((if_neg two).trans (if_pos three))),
        large _ (by omega) (by omega)⟩
    · exact ⟨_, _, encoded.trans ((if_neg notOne).trans ((if_neg two).trans (if_neg three))),
        large _ (by omega) (by omega)⟩

theorem testsBytesOf_of_ascii (ascii : ∀ n < 128, test (UInt8.ofNat n) = testChar (Char.ofNat n))
    (bytes : ∀ byte, test byte = true → byte < 128)
    (chars : ∀ c, testChar c = true → c.toNat < 128) : TestsBytesOf test testChar := by
  intro c
  by_cases narrow : c.toNat < 128
  · have one : String.utf8EncodeChar c = [UInt8.ofNat c.toNat] :=
      String.utf8EncodeChar_eq_singleton (Char.utf8Size_eq_one_iff.2 (Nat.le_of_lt_succ narrow))
    have same := ascii c.toNat narrow
    rw [Char.ofNat_toNat] at same
    exact ⟨_, _, one, same, fun _ => rfl⟩
  · obtain ⟨first, more, encoded, large⟩ := exists_lead_of_not_ascii narrow
    have charFails : testChar c = false :=
      Bool.not_eq_true _ ▸ fun passes => narrow (chars c passes)
    have byteFails : test first = false :=
      Bool.not_eq_true _ ▸ fun passes => absurd (bytes first passes) (UInt8.not_lt.2 large)
    refine ⟨first, more, encoded, byteFails.trans charFails.symm, fun passes => ?_⟩
    rw [charFails] at passes
    cases passes

theorem testsBytesOf_isBlank : TestsBytesOf isBlankByte Text.isBlank := by
  refine testsBytesOf_of_ascii (by decide) (fun byte passes => ?_) fun c passes => ?_
  · grind [isBlankByte]
  · simp only [Text.isBlank, Bool.or_eq_true, beq_iff_eq] at passes
    rcases passes with (((rfl | rfl) | rfl) | rfl) | rfl
    all_goals decide

theorem testsBytesOf_isWordChar : TestsBytesOf isWordByte Text.isWordChar := by
  refine testsBytesOf_of_ascii (by decide) (fun byte passes => ?_) fun c passes => ?_
  · grind [isWordByte]
  · unfold Text.isWordChar Char.isAlphanum Char.isAlpha Char.isUpper Char.isLower
      Char.isDigit at passes
    simp only [Bool.or_eq_true, Bool.and_eq_true, decide_eq_true_eq, beq_iff_eq,
      UInt32.le_iff_toNat_le] at passes
    rcases passes with ((⟨_, small⟩ | ⟨_, small⟩) | ⟨_, small⟩) | rfl
    · exact Nat.lt_of_le_of_lt small (by decide)
    · exact Nat.lt_of_le_of_lt small (by decide)
    · exact Nat.lt_of_le_of_lt small (by decide)
    · decide

/-- The bytes of a run are passed up to the first that fails the test. -/
theorem skipBytes_append {front run behind : List UInt8} (passes : ∀ byte ∈ run, test byte = true)
    (stops : ∀ byte ∈ behind.head?, test byte = false) :
    skipBytes test (front ++ (run ++ behind)) front.length = front.length + run.length := by
  induction run generalizing front with
  | nil =>
    cases behind with
    | nil => simp [skipBytes]
    | cons byte behind =>
      have fails := stops byte rfl
      rw [skipBytes]
      simp [fails]
  | cons byte run ih =>
    have passesHere := passes byte List.mem_cons_self
    have onward : skipBytes test (front ++ [byte] ++ (run ++ behind)) (front ++ [byte]).length
        = (front ++ [byte]).length + run.length :=
      ih fun other isIn => passes other (List.mem_cons_of_mem _ isIn)
    rw [List.length_append, List.length_singleton, List.append_assoc, List.singleton_append]
      at onward
    rw [skipBytes]
    simp only [List.cons_append, List.length_append, List.length_cons, List.getElem_append_right,
      Nat.le_refl, Nat.sub_self, List.getElem_cons_zero, passesHere, if_true, onward]
    rw [dif_pos (by omega)]
    omega

theorem skipBytes_encode (tests : TestsBytesOf test testChar) (front text : Text) :
    skipBytes test (Utf8.encode (front ++ text)) (Text.byteLength front)
      = Text.byteLength front + Text.byteLength (text.takeWhile testChar) := by
  have split : Utf8.encode (front ++ text) = Utf8.encode front
      ++ (Utf8.encode (text.takeWhile testChar) ++ Utf8.encode (text.dropWhile testChar)) := by
    rw [← Utf8.encode_append, List.takeWhile_append_dropWhile, Utf8.encode_append]
  rw [split, ← Utf8.length_encode, ← Utf8.length_encode]
  refine skipBytes_append ?_ ?_
  · intro byte isIn
    obtain ⟨c, isChar, isByte⟩ := List.mem_flatMap.1 isIn
    obtain ⟨first, more, encoded, same, alone⟩ := tests c
    have passes := List.mem_takeWhile_imp isChar
    rw [encoded, alone passes] at isByte
    rw [List.mem_singleton.1 isByte, same, passes]
  · intro byte isFirst
    have stops := Text.stops_dropWhile testChar text
    cases rest : text.dropWhile testChar with
    | nil =>
      rw [rest] at isFirst
      cases isFirst
    | cons c rest' =>
      obtain ⟨first, more, encoded, same, _⟩ := tests c
      rw [rest, Utf8.encode, List.flatMap_cons, encoded] at isFirst
      cases isFirst
      rw [same]
      exact stops c (by rw [rest]; rfl)

end

/-! ## Finding directives -/

/-- A directive of a text by its positions, if the text begins at byte `start`. -/
def DirectiveMatch.at (found : DirectiveMatch) (start : Nat) : FoundDirective where
  start := start
  stop := start + Text.byteLength found.lexeme
  word := found.word
  arguments := found.arguments

section

variable {source front text body before after : Text} {found : DirectiveMatch}

theorem matchAt_append (front body : Text) :
    matchAt (front ++ (openBraces ++ body)) (Text.byteLength front)
      = .ok ((DirectiveMatch.ofBody? body).map (·.at (Text.byteLength front))) := by
  -- The source in parts, between which all positions of the scanner lie.
  obtain ⟨blanks, isBlanks⟩ : ∃ blanks, body.takeWhile Text.isBlank = blanks := ⟨_, rfl⟩
  obtain ⟨behind, isBehind⟩ : ∃ behind, body.dropWhile Text.isBlank = behind := ⟨_, rfl⟩
  obtain ⟨word, isWord⟩ : ∃ word, behind.takeWhile Text.isWordChar = word := ⟨_, rfl⟩
  obtain ⟨tail, isTail⟩ : ∃ tail, behind.dropWhile Text.isWordChar = tail := ⟨_, rfl⟩
  obtain ⟨start, isStart⟩ : ∃ start, front ++ openBraces ++ blanks = start := ⟨_, rfl⟩
  have isWhole : front ++ (openBraces ++ body) = start ++ behind := by
    rw [← isStart, ← isBlanks, ← isBehind]
    simp only [List.append_assoc, List.takeWhile_append_dropWhile]
  have split : front ++ (openBraces ++ body) = start ++ (word ++ tail) := by
    rw [isWhole, ← isWord, ← isTail, List.takeWhile_append_dropWhile]
  have wordStart : skipBytes isBlankByte (Utf8.encode (front ++ (openBraces ++ body)))
      (Text.byteLength front + 2) = Text.byteLength start := by
    have skipped := skipBytes_encode testsBytesOf_isBlank (front ++ openBraces) body
    rwa [List.append_assoc, isBlanks, ← Text.byteLength_append, isStart, Text.byteLength_append]
      at skipped
  have wordStop : skipBytes isWordByte (Utf8.encode (front ++ (openBraces ++ body)))
      (Text.byteLength start) = Text.byteLength (start ++ word) := by
    have skipped := skipBytes_encode testsBytesOf_isWordChar start behind
    rwa [← isWhole, isWord, ← Text.byteLength_append] at skipped
  have rest : Text.slice (front ++ (openBraces ++ body)) (Text.byteLength (start ++ word))
      (Text.byteLength (front ++ (openBraces ++ body))) = .ok tail := by
    rw [split, ← List.append_assoc]
    exact Text.slice_rest _ _
  unfold matchAt DirectiveMatch.ofBody?
  simp only [wordStart, wordStop, rest, isBlanks, isBehind, isWord, isTail]
  by_cases empty : word = []
  · rw [if_pos (by rw [empty, List.append_nil]), if_pos empty]
    rfl
  · have longer : Text.byteLength (start ++ word) ≠ Text.byteLength start := by
      rw [Text.byteLength_append]
      exact fun same => empty (Text.byteLength_eq_zero.1 (by omega))
    rw [if_neg longer, if_neg empty, Except.ok_bind]
    cases closed : Text.cut closeBraces tail with
    | none =>
      rw [Text.position?_eq_none.2 closed]
      rfl
    | some cutting =>
      obtain ⟨between, after⟩ := cutting
      have between? : Text.slice (front ++ (openBraces ++ body)) (Text.byteLength (start ++ word))
          (Text.byteLength (start ++ word) + Text.byteLength between) = .ok between := by
        rw [split, Text.append_of_cut closed, ← List.append_assoc, List.append_assoc between]
        exact Text.slice_append _ _ _
      have word? : Text.slice (front ++ (openBraces ++ body)) (Text.byteLength start)
          (Text.byteLength (start ++ word)) = .ok word := by
        rw [split, Text.byteLength_append]
        exact Text.slice_append _ _ _
      rw [Text.position?_of_cut closed]
      simp only [between?, word?, Except.ok_bind, Option.bind_eq_bind, Option.bind_some]
      split
      · rfl
      · have two : Text.byteLength closeBraces = 2 := rfl
        have stop : Text.byteLength (start ++ word) + Text.byteLength between + 2
            = Text.byteLength front + Text.byteLength
              (openBraces ++ blanks ++ word ++ between ++ closeBraces) := by
          simp only [← isStart, Text.byteLength_append]
          omega
        rw [stop]
        rfl

/-- Text in front of the first opening braces holds no directive. -/
theorem nextMatch?_append (first : Text.FirstBehind openBraces before) :
    nextMatch? (before ++ (openBraces ++ after))
      = (nextMatch? (openBraces ++ after)).map fun (inner, found) => (before ++ inner, found) := by
  induction before with
  | nil =>
    rw [List.nil_append]
    exact Option.map_id'.symm
  | cons c before ih =>
    obtain ⟨notHere, later⟩ := Text.firstBehind_cons.1 first
    have notBegins : ¬ BeginsDirective (c :: (before ++ (openBraces ++ after))) := by
      rintro ⟨lexeme, word, arguments, shape, within⟩
      have braces := shape.openBraces_prefix.trans within
      rw [← List.append_assoc, ← List.cons_append, ← List.cons_append] at braces
      exact notHere (List.prefix_of_prefix_length_le braces (List.prefix_append _ _)
        (by simp only [List.length_append, List.length_cons]; omega))
    rw [List.cons_append, nextMatch?_of_not_begins notBegins, ih later, Option.map_map]
    rfl

theorem nextMatch?_of_cut_none (noBraces : Text.cut openBraces text = none) :
    nextMatch? text = none := by
  cases next : nextMatch? text with
  | none => rfl
  | some result =>
    obtain ⟨before, found⟩ := result
    obtain ⟨split, shape, _⟩ := leftmost_of_nextMatch? next
    have within : openBraces <:+: before ++ found.lexeme ++ found.rest :=
      shape.openBraces_prefix.isInfix.trans ⟨before, found.rest, rfl⟩
    exact absurd (split ▸ within) ((Text.cut_eq_none_iff (by decide)).1 noBraces)

/-- Braces that begin no directive may still share their second one with braces that do. -/
theorem nextMatch?_of_ofBody?_none (noMatch : DirectiveMatch.ofBody? after = none) :
    nextMatch? (openBraces ++ after)
      = (nextMatch? ('\x7b' :: after)).map fun (inner, found) => ('\x7b' :: inner, found) := by
  have notBegins : ¬ BeginsDirective (openBraces ++ after) := by
    intro begins
    obtain ⟨body, found, same, matched⟩ := beginsDirective_iff.1 begins
    rw [← List.append_cancel_left same, noMatch] at matched
    cases matched
  rw [show openBraces ++ after = '\x7b' :: '\x7b' :: after from rfl] at notBegins ⊢
  rw [nextMatch?_of_not_begins notBegins]

/-- From a boundary on, what is found is the next directive of the text behind. -/
theorem findFrom_append (front text : Text) :
    findFrom (front ++ text) (Text.byteLength front)
      = .ok ((nextMatch? text).map fun result =>
          result.2.at (Text.byteLength (front ++ result.1))) := by
  induction size : text.length using Nat.strong_induction_on generalizing front text with
  | _ n ih =>
    rw [findFrom]
    split
    · next refused =>
      rw [Text.slice_rest] at refused
      cases refused
    · next sliced =>
      rw [Text.slice_rest] at sliced
      cases sliced
      split
      · next noBraces =>
        rw [nextMatch?_of_cut_none (Text.position?_eq_none.1 noBraces)]
        rfl
      · next offset braces =>
        obtain ⟨⟨before, after⟩, cutThere, sameOffset⟩ := Option.map_eq_some_iff.1 braces
        obtain ⟨split, first⟩ := (Text.cut_eq_some_iff (by decide)).1 cutThere
        rw [List.append_assoc] at split
        have opening : Text.byteLength front + offset = Text.byteLength (front ++ before) := by
          rw [Text.byteLength_append, ← sameOffset]
        have whole : front ++ text = front ++ before ++ (openBraces ++ after) := by
          rw [split, List.append_assoc]
        have here := matchAt_append (front ++ before) after
        rw [opening, whole, here, split, nextMatch?_append first]
        cases matched : DirectiveMatch.ofBody? after with
        | some found =>
          rw [nextMatch?_of_ofBody? matched]
          simp only [Option.map_some, List.append_nil]
        | none =>
          -- The first brace is passed, and the search goes on with the second one.
          have shorter : ('\x7b' :: after).length < n := by
            rw [← size, split]
            simp only [List.length_append, List.length_cons, openBraces]
            omega
          have onward := ih _ shorter (front ++ before ++ ['\x7b']) ('\x7b' :: after) rfl
          have sameText : front ++ before ++ ['\x7b'] ++ '\x7b' :: after
              = front ++ before ++ (openBraces ++ after) := by
            simp [openBraces]
          have nextByte : Text.byteLength (front ++ before ++ ['\x7b'])
              = Text.byteLength (front ++ before) + 1 := Text.byteLength_append _ _
          rw [sameText, nextByte] at onward
          simp only [Option.map_none, onward, nextMatch?_of_ofBody?_none matched, Option.map_map]
          refine congrArg (fun change => Except.ok (Option.map change _)) (funext fun later => ?_)
          simp only [Function.comp_apply, List.append_assoc, List.cons_append, List.nil_append]

end

/-! ## Tokens one after another -/

section

variable {source front behind text before : Text} {start stop : Nat} {found : DirectiveMatch}
  {tokens : List Token}

theorem rawBetween_append (front html behind : Text) :
    rawBetween (front ++ (html ++ behind)) (Text.byteLength front)
        (Text.byteLength front + Text.byteLength html)
      = .ok (.rawAt (Text.byteLength front) html) := by
  rw [rawBetween, Text.slice_append]
  rfl

/-- A directive that is found becomes the token of its match. -/
theorem token_at (found : DirectiveMatch) (front behind : Text) :
    (found.at (Text.byteLength front)).token (front ++ (found.lexeme ++ behind))
      = .ok (found.token (Text.byteLength front)) := by
  unfold FoundDirective.token DirectiveMatch.token
  rw [show (found.at (Text.byteLength front)).word = found.word from rfl]
  cases TokenKind.ofKeyword? found.word with
  | some kind => rfl
  | none => exact rawBetween_append front found.lexeme behind

/-- Where no directive is left, one raw token takes the rest. -/
theorem yields_rawTokens (noMatch : nextMatch? text = none) :
    TokenStream.Yields (front ++ text) { emitted := Text.byteLength front }
      (rawTokens (Text.byteLength front) text) := by
  have ends : Text.byteLength (front ++ text) = Text.byteLength front + Text.byteLength text :=
    Text.byteLength_append _ _
  by_cases empty : text = []
  · rw [rawTokens, if_pos empty]
    refine .done ?_
    simp only [TokenStream.next]
    rw [if_pos (by rw [empty, List.append_nil])]
    rfl
  · have search := findFrom_append front text
    have rest := rawBetween_append front text []
    rw [noMatch, Option.map_none] at search
    rw [List.append_nil, ← ends] at rest
    rw [rawTokens, if_neg empty]
    have ended : TokenStream.Yields (front ++ text)
        { emitted := Text.byteLength (front ++ text) } [] := by
      refine .done ?_
      simp only [TokenStream.next]
      rw [if_pos (Nat.le_refl _)]
      rfl
    -- One raw token takes all that is left, and the stream ends behind it.
    refine .more ?_ ended
    simp only [TokenStream.next]
    rw [if_neg fun finished => empty (Text.byteLength_eq_zero.1 (by omega)), search]
    simp only [Except.ok_bind, rest]
    rfl

/-- A directive is yielded behind the raw token before it, if there is one. -/
theorem yields_of_nextMatch? (next : nextMatch? text = some (before, found))
    (rest : TokenStream.Yields (front ++ text)
      { emitted := (found.token (Text.byteLength (front ++ before))).stop } tokens) :
    TokenStream.Yields (front ++ text) { emitted := Text.byteLength front }
      (rawTokens (Text.byteLength front) before
        ++ found.token (Text.byteLength (front ++ before)) :: tokens) := by
  obtain ⟨split, shape, _⟩ := leftmost_of_nextMatch? next
  have opening : Text.byteLength (front ++ before)
      = Text.byteLength front + Text.byteLength before := Text.byteLength_append _ _
  have unfinished : ¬ Text.byteLength (front ++ text) ≤ Text.byteLength front := by
    have positive := Text.byteLength_pos shape.ne_nil
    rw [split]
    simp only [Text.byteLength_append]
    omega
  have search := findFrom_append front text
  rw [next, Option.map_some] at search
  have directive := token_at found (front ++ before) found.rest
  have raw := rawBetween_append front before (found.lexeme ++ found.rest)
  rw [← opening] at raw
  rw [show front ++ before ++ (found.lexeme ++ found.rest) = front ++ text by
    rw [split]; simp only [List.append_assoc]] at directive
  rw [show front ++ (before ++ (found.lexeme ++ found.rest)) = front ++ text by
    rw [split]; simp only [List.append_assoc]] at raw
  -- With raw HTML in front of it the directive waits for the next call.
  by_cases empty : before = []
  · subst empty
    rw [rawTokens, if_pos rfl, List.nil_append]
    refine .more ?_ rest
    simp only [TokenStream.next]
    rw [if_neg unfinished, search]
    simp only [Except.ok_bind, directive]
    rw [if_neg (by simp [DirectiveMatch.at])]
    rfl
  · have positive := Text.byteLength_pos empty
    rw [rawTokens, if_neg empty, List.singleton_append]
    have waiting : TokenStream.Yields (front ++ text)
        { emitted := (found.token (Text.byteLength (front ++ before))).stop
          pending := some (found.token (Text.byteLength (front ++ before))) }
        (found.token (Text.byteLength (front ++ before)) :: tokens) := .more rfl rest
    refine .more ?_ waiting
    simp only [TokenStream.next]
    rw [if_neg unfinished, search]
    simp only [Except.ok_bind, directive]
    rw [if_pos (by simp only [DirectiveMatch.at]; omega)]
    simp only [DirectiveMatch.at, raw, Except.ok_bind]
    rfl

/-- From a boundary on, the stream yields the tokens of the text behind. -/
theorem yields_tokensFrom (origin : Nat) (text : Text) :
    ∀ front, Text.byteLength front = origin → TokenStream.Yields (front ++ text)
      { emitted := origin } (tokensFrom origin text) := by
  fun_induction tokensFrom origin text with
  | case1 origin text next =>
    rintro front rfl
    exact yields_rawTokens next
  | case2 origin text before found next token ih =>
    rintro front rfl
    have opening : Text.byteLength front + Text.byteLength before
        = Text.byteLength (front ++ before) := (Text.byteLength_append _ _).symm
    have split := (leftmost_of_nextMatch? next).1
    have whole : front ++ before ++ found.lexeme ++ found.rest = front ++ text := by
      rw [split]
      simp only [List.append_assoc]
    have behind : Text.byteLength (front ++ before ++ found.lexeme) = token.stop := by
      rw [DirectiveMatch.token_stop, opening, ← Text.byteLength_append]
    have rest := ih (front ++ before ++ found.lexeme) behind
    rw [whole] at rest
    simp only [token, opening] at rest ⊢
    exact yields_of_nextMatch? next rest

end

/-! ## The spans of the tokens -/

/-- The tokens lie in a text one behind the other, from byte `start` on, and nothing of the text
lies between them. -/
inductive Tiles : Nat → Text → List Token → Prop where
  | nil (start : Nat) : Tiles start [] []
  | cons {token : Token} {lexeme behind : Text} {tokens : List Token} (nonempty : lexeme ≠ [])
      (ends : token.stop = token.start + Text.byteLength lexeme)
      (raw : token.kind = .raw → token.content = lexeme)
      (rest : Tiles token.stop behind tokens) :
      Tiles token.start (lexeme ++ behind) (token :: tokens)

/-- The token covers a part of the source, and raw tokens hold that part. -/
inductive Token.Covers (source : Text) (token : Token) : Prop where
  | part (before lexeme behind : Text) (split : source = before ++ (lexeme ++ behind))
      (nonempty : lexeme ≠ []) (starts : token.start = Text.byteLength before)
      (stops : token.stop = Text.byteLength before + Text.byteLength lexeme)
      (raw : token.kind = .raw → token.content = lexeme)

/-- The spans of the tokens partition the source, and raw tokens hold what they cover. -/
structure Partitions (source : Text) (tokens : List Token) : Prop where
  nonempty : ∀ token ∈ tokens, token.start < token.stop
  /-- Each span begins where the one before it ends, from the first byte to the end. -/
  contiguous : tokens.map Token.start ++ [Text.byteLength source] = 0 :: tokens.map Token.stop
  boundaries : ∀ token ∈ tokens, Text.isBoundary token.start source = true ∧
    Text.isBoundary token.stop source = true
  slices : ∀ token ∈ tokens,
    source.slice token.start token.stop = .ok (token.lexeme source)
  raw : ∀ token ∈ tokens, token.kind = .raw → token.content = token.lexeme source
  whole : tokens.flatMap (Token.lexeme source) = source

section

variable {source front text : Text} {token : Token} {tokens : List Token} {start : Nat}

theorem tiles_append_rawTokens {html behind : Text}
    (rest : Tiles (start + Text.byteLength html) behind tokens) :
    Tiles start (html ++ behind) (rawTokens start html ++ tokens) := by
  unfold rawTokens
  split
  · next empty =>
    subst empty
    exact rest
  · next nonempty =>
    change Tiles (Token.rawAt start html).start (html ++ behind) (.rawAt start html :: tokens)
    exact .cons nonempty rfl (fun _ => rfl) rest

theorem tiles_tokensFrom (origin : Nat) (text : Text) :
    Tiles origin text (tokensFrom origin text) := by
  fun_induction tokensFrom origin text with
  | case1 origin text next =>
    have whole : Tiles origin (text ++ []) (rawTokens origin text ++ []) :=
      tiles_append_rawTokens (.nil _)
    rwa [List.append_nil, List.append_nil] at whole
  | case2 origin text before found next token ih =>
    obtain ⟨split, shape, _⟩ := leftmost_of_nextMatch? next
    rw [split, List.append_assoc]
    refine tiles_append_rawTokens ?_
    have starts : token.start = origin + Text.byteLength before := DirectiveMatch.token_start
    rw [← starts]
    refine .cons shape.ne_nil ?_ ?_ ih
    · rw [starts]
      exact DirectiveMatch.token_stop
    · exact fun isRaw => (DirectiveMatch.isUnknown_of_raw shape isRaw).1

theorem Token.lexeme_of_split {before lexeme behind : Text}
    (split : source = before ++ (lexeme ++ behind)) (starts : token.start = Text.byteLength before)
    (stops : token.stop = Text.byteLength before + Text.byteLength lexeme) :
    token.lexeme source = lexeme := by
  rw [Token.lexeme, split, starts, stops, Text.dropBytes_append, Nat.add_sub_cancel_left,
    Text.takeBytes_append]

namespace Tiles

theorem covers (tiles : Tiles start text tokens) :
    ∀ front, Text.byteLength front = start → ∀ token ∈ tokens, token.Covers (front ++ text) := by
  induction tiles with
  | nil start =>
    intro front reached token isIn
    cases isIn
  | @cons head lexeme behind tokens nonempty ends raw rest ih =>
    intro front reached token isIn
    rcases List.mem_cons.1 isIn with rfl | isLater
    · exact .part front lexeme behind rfl nonempty reached.symm (by rw [ends, reached]) raw
    · have behindLexeme : Text.byteLength (front ++ lexeme) = head.stop := by
        rw [Text.byteLength_append, reached, ends]
      have later := ih (front ++ lexeme) behindLexeme token isLater
      rwa [List.append_assoc] at later

theorem contiguous (tiles : Tiles start text tokens) :
    tokens.map Token.start ++ [start + Text.byteLength text] = start :: tokens.map Token.stop := by
  induction tiles with
  | nil start => rfl
  | @cons head lexeme behind tokens nonempty ends raw rest ih =>
    have sameEnd : head.start + Text.byteLength (lexeme ++ behind)
        = head.stop + Text.byteLength behind := by
      rw [Text.byteLength_append, ends, Nat.add_assoc]
    rw [sameEnd, List.map_cons, List.map_cons, List.cons_append, ih]

theorem flatMap_lexeme (tiles : Tiles start text tokens) :
    ∀ front, Text.byteLength front = start →
      tokens.flatMap (Token.lexeme (front ++ text)) = text := by
  induction tiles with
  | nil start => exact fun _ _ => rfl
  | @cons head lexeme behind tokens nonempty ends raw rest ih =>
    intro front reached
    have stops : head.stop = Text.byteLength front + Text.byteLength lexeme := by rw [ends, reached]
    have here : head.lexeme (front ++ (lexeme ++ behind)) = lexeme :=
      Token.lexeme_of_split rfl reached.symm stops
    have later := ih (front ++ lexeme) ((Text.byteLength_append _ _).trans stops.symm)
    rw [List.append_assoc] at later
    rw [List.flatMap_cons, here, later]

end Tiles

namespace Token.Covers

variable (covers : token.Covers source)

include covers

theorem start_lt_stop : token.start < token.stop := by
  obtain ⟨before, lexeme, behind, split, nonempty, starts, stops, raw⟩ := covers
  have positive := Text.byteLength_pos nonempty
  omega

theorem slice_eq : source.slice token.start token.stop = .ok (token.lexeme source) := by
  obtain ⟨before, lexeme, behind, split, nonempty, starts, stops, raw⟩ := covers
  rw [Token.lexeme_of_split split starts stops, starts, stops, split]
  exact Text.slice_append before lexeme behind

theorem content_eq (isRaw : token.kind = .raw) : token.content = token.lexeme source := by
  obtain ⟨before, lexeme, behind, split, nonempty, starts, stops, raw⟩ := covers
  rw [Token.lexeme_of_split split starts stops, raw isRaw]

end Token.Covers

theorem covers_of_mem_tokenize (isIn : token ∈ tokenize source) : token.Covers source :=
  (tiles_tokensFrom 0 source).covers [] rfl token isIn

theorem partitions_tokenize (source : Text) : Partitions source (tokenize source) where
  nonempty token isIn := (covers_of_mem_tokenize isIn).start_lt_stop
  contiguous := by
    have whole := (tiles_tokensFrom 0 source).contiguous
    rwa [Nat.zero_add] at whole
  boundaries token isIn := Text.boundaries_of_slice (covers_of_mem_tokenize isIn).slice_eq
  slices token isIn := (covers_of_mem_tokenize isIn).slice_eq
  raw token isIn isRaw := (covers_of_mem_tokenize isIn).content_eq isRaw
  whole := (tiles_tokensFrom 0 source).flatMap_lexeme [] rfl

/-- The scanner yields the tokens of every source and comes to its end with no slice refused, and
the spans of the tokens partition the source. -/
theorem tokenize_partitions (source : Text) :
    TokenStream.Yields source {} (tokenize source) ∧ Partitions source (tokenize source) :=
  ⟨yields_tokensFrom 0 source [] rfl, partitions_tokenize source⟩

end

end StaticSite
