import StaticSite.Text.Numeral

/-!
# Quoted strings of a TOML document

A string is written in one of four ways: basic or literal, on one line or on several.  Writing
picks the plainest way that needs no escapes, and escapes what it must.  Reading takes any of
the four.
-/

namespace StaticSite.Toml

/-- The four ways to quote a string. -/
inductive Quoting where
  | basic
  | literal
  | multilineBasic
  | multilineLiteral
  deriving DecidableEq, Repr

/-! ## Writing -/

/-- The length of the longest run of `mark`, the first `current` characters of which have been
passed already. -/
def longestRun (mark : Char) (current : Nat) : Text → Nat
  | [] => current
  | c :: rest =>
      if c = mark then longestRun mark (current + 1) rest
      else max current (longestRun mark 0 rest)

/-- Characters that only an escape can write: the ASCII controls but tab and line feed. -/
def isControl (c : Char) : Bool :=
  (c.toNat < 0x20 || c.toNat == 0x7F) && c != '\t' && c != '\n'

/-- The way in which a string is quoted. -/
def Quoting.choose (text : Text) : Quoting :=
  let controls := text.any isControl
  let backslash := text.contains '\\'
  let lines := text.contains '\n'
  let quotes := longestRun '"' 0 text
  let apostrophes := longestRun '\'' 0 text
  if !controls && !backslash && quotes == 0 && !lines then .basic
  else if !controls && apostrophes == 0 && !lines then .literal
  else if !controls && !backslash && quotes ≤ 2 then .multilineBasic
  else if !controls && apostrophes ≤ 2 then .multilineLiteral
  else if lines then .multilineBasic
  else .basic

/-- A character of a basic string, escaped if it has to be. -/
def escapeChar (c : Char) : Text :=
  if c = '\x08' then "\\b".toList
  else if c = '\t' then "\\t".toList
  else if c = '\n' then "\\n".toList
  else if c = '\x0c' then "\\f".toList
  else if c = '\r' then "\\r".toList
  else if c = '"' then "\\\"".toList
  else if c = '\\' then "\\\\".toList
  else if isControl c then "\\u".toList ++ Numeral.upperHex4 c.toNat
  else [c]

/-- The inside of a basic string of several lines, where `quotes` quotation marks stand just
before it.  Line feeds stand for themselves, and every third quotation mark in a row is
escaped. -/
def escapeLines (quotes : Nat) : Text → Text
  | [] => []
  | c :: rest =>
      if c = '"' then
        if quotes = 2 then escapeChar c ++ escapeLines 0 rest
        else c :: escapeLines (quotes + 1) rest
      else if c = '\n' then c :: escapeLines 0 rest
      else escapeChar c ++ escapeLines 0 rest

/-- The delimiter of a way to quote. -/
def Quoting.delimiter : Quoting → Text
  | basic => ['"']
  | literal => ['\'']
  | multilineBasic => ['"', '"', '"']
  | multilineLiteral => ['\'', '\'', '\'']

/-- A string in a given way to quote.  A string of several lines starts on a new line, which is
not part of it. -/
def Quoting.write (quoting : Quoting) (text : Text) : Text :=
  let lead : Text := if text.contains '\n' then ['\n'] else []
  let inside := match quoting with
    | basic => text.flatMap escapeChar
    | literal => text
    | multilineBasic => lead ++ escapeLines 0 text
    | multilineLiteral => lead ++ text
  quoting.delimiter ++ inside ++ quoting.delimiter

/-- A string as it is written. -/
def quote (text : Text) : Text :=
  (Quoting.choose text).write text

/-! ## Reading -/

/-- A line end, which is a line feed with or without a carriage return. -/
def newline? : Text → Option Text
  | '\n' :: rest => some rest
  | '\r' :: '\n' :: rest => some rest
  | _ => none

/-- Blanks inside a line are spaces and tabs. -/
def isLineBlank (c : Char) : Bool :=
  c == ' ' || c == '\t'

/-- The text behind its leading spaces and tabs. -/
def skipBlanks (text : Text) : Text :=
  text.dropWhile isLineBlank

/-- The text behind its leading blanks and line ends. -/
def skipBlankLines : Text → Text
  | '\r' :: '\n' :: rest => skipBlankLines rest
  | c :: rest => if isLineBlank c || c == '\n' then skipBlankLines rest else c :: rest
  | [] => []

/-- Characters that stand for themselves in a string, quotation mark and backslash aside. -/
def isPlain (c : Char) : Bool :=
  !isControl c && c != '\n'

/-- The character that an escape stands for, read behind its backslash. -/
def escaped? : Text → Option (Char × Text)
  | 'b' :: rest => some ('\x08', rest)
  | 't' :: rest => some ('\t', rest)
  | 'n' :: rest => some ('\n', rest)
  | 'f' :: rest => some ('\x0c', rest)
  | 'r' :: rest => some ('\r', rest)
  | '"' :: rest => some ('"', rest)
  | '\\' :: rest => some ('\\', rest)
  | 'u' :: rest => do
      let (codePoint, rest) ← Numeral.takeHex? 4 rest
      some (← Numeral.char? codePoint, rest)
  | 'U' :: rest => do
      let (codePoint, rest) ← Numeral.takeHex? 8 rest
      some (← Numeral.char? codePoint, rest)
  | _ => none

theorem length_le_of_codePoint? {count : Nat} {text rest : Text} {c : Char}
    (read : (do
      let (codePoint, rest) ← Numeral.takeHex? count text
      some (← Numeral.char? codePoint, rest)) = some (c, rest)) :
    rest.length ≤ text.length := by
  obtain ⟨⟨codePoint, tail⟩, digits, read⟩ := Option.bind_eq_some_iff.1 read
  obtain ⟨char, _, read⟩ := Option.bind_eq_some_iff.1 read
  simp only [Option.some.injEq, Prod.mk.injEq] at read
  exact read.2 ▸ Numeral.length_le_of_takeHex? digits

theorem length_lt_of_escaped? {text rest : Text} {c : Char}
    (read : escaped? text = some (c, rest)) : rest.length < text.length := by
  unfold escaped? at read
  split at read
  case h_8 => exact Nat.lt_succ_of_le (length_le_of_codePoint? read)
  case h_9 => exact Nat.lt_succ_of_le (length_le_of_codePoint? read)
  case h_10 => simp at read
  all_goals
    simp only [Option.some.injEq, Prod.mk.injEq] at read
    simp [← read.2]

theorem length_skipBlankLines_le (text : Text) :
    (skipBlankLines text).length ≤ text.length := by
  fun_induction skipBlankLines text with
  | case1 rest ih => exact Nat.le_succ_of_le (Nat.le_succ_of_le ih)
  | case2 c rest _ _ ih => exact Nat.le_succ_of_le ih
  | case3 => exact Nat.le_refl _
  | case4 => exact Nat.le_refl _

theorem length_lt_of_newline? {text rest : Text} (read : newline? text = some rest) :
    rest.length < text.length := by
  unfold newline? at read
  split at read
  · cases read
    exact Nat.lt_succ_self _
  · cases read
    exact Nat.lt_succ_of_lt (Nat.lt_succ_self _)
  · cases read

/-- The inside of a basic string on one line, read behind its opening mark. -/
def readBasic? : Text → Option (Text × Text)
  | [] => none
  | '"' :: rest => some ([], rest)
  | '\\' :: rest =>
      match _ : escaped? rest with
      | none => none
      | some (c, behind) => do
          let (text, rest) ← readBasic? behind
          some (c :: text, rest)
  | c :: rest =>
      if isPlain c then do
        let (text, rest) ← readBasic? rest
        some (c :: text, rest)
      else none
  termination_by text => text.length
  decreasing_by
    · exact Nat.lt_succ_of_lt (length_lt_of_escaped? ‹_›)
    · exact Nat.lt_succ_self _

/-- The inside of a literal string on one line, read behind its opening mark. -/
def readLiteral? : Text → Option (Text × Text)
  | [] => none
  | '\'' :: rest => some ([], rest)
  | c :: rest =>
      if isPlain c then do
        let (text, rest) ← readLiteral? rest
        some (c :: text, rest)
      else none

/-- The marks that end a string of several lines.  Of five marks in a row the last three close
the string, and those before them belong to it. -/
def closing? (mark : Char) (text : Text) : Option (Text × Text) :=
  let run := (text.takeWhile (· == mark)).length
  if run < 3 then none
  else
    let inside := min (run - 3) 2
    some (List.replicate inside mark, text.drop (inside + 3))

/-- The inside of a basic string of several lines.  A backslash at the end of a line takes back
the line end and all blanks behind it. -/
def readLines? (text : Text) : Option (Text × Text) :=
  match closing? '"' text with
  | some closed => some closed
  | none =>
      match text with
      | [] => none
      | '\r' :: '\n' :: rest => do
          let (text, rest) ← readLines? rest
          some ('\n' :: text, rest)
      | '\\' :: rest =>
          match _ : newline? (skipBlanks rest) with
          | some behind => readLines? (skipBlankLines behind)
          | none =>
              match _ : escaped? rest with
              | none => none
              | some (c, behind) => do
                  let (text, rest) ← readLines? behind
                  some (c :: text, rest)
      | c :: rest =>
          if isPlain c || c == '\n' then do
            let (text, rest) ← readLines? rest
            some (c :: text, rest)
          else none
  termination_by text.length
  decreasing_by
    · exact Nat.lt_succ_of_lt (Nat.lt_succ_self _)
    · have ended := length_lt_of_newline? ‹_›
      have skipped := (List.dropWhile_suffix isLineBlank (l := rest)).length_le
      have lines := length_skipBlankLines_le behind
      simp only [skipBlanks] at ended
      simp only [List.length_cons]
      omega
    · exact Nat.lt_succ_of_lt (length_lt_of_escaped? ‹_›)
    · exact Nat.lt_succ_self _

/-- The inside of a literal string of several lines. -/
def readRawLines? (text : Text) : Option (Text × Text) :=
  match closing? '\'' text with
  | some closed => some closed
  | none =>
      match text with
      | [] => none
      | '\r' :: '\n' :: rest => do
          let (text, rest) ← readRawLines? rest
          some ('\n' :: text, rest)
      | c :: rest =>
          if isPlain c || c == '\n' then do
            let (text, rest) ← readRawLines? rest
            some (c :: text, rest)
          else none
  termination_by text.length

/-- The text behind the line end that may follow an opening mark of three. -/
def skipLead (text : Text) : Text :=
  (newline? text).getD text

/-- A string in any of the four ways to quote, and the text behind it. -/
def readQuoted? : Text → Option (Text × Text)
  | '"' :: '"' :: '"' :: rest => readLines? (skipLead rest)
  | '"' :: rest => readBasic? rest
  | '\'' :: '\'' :: '\'' :: rest => readRawLines? (skipLead rest)
  | '\'' :: rest => readLiteral? rest
  | _ => none

end StaticSite.Toml
