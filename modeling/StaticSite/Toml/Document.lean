import StaticSite.Toml.Scalar

/-!
# TOML documents

A document is a list of statements, one a line: a key with its value, the header of a table, or
the header of one more table of a list.  Reading a document gives the rows of its root table.
-/

namespace StaticSite.Toml

/-- Arrays and braces nest less deeply than this, and keys have fewer parts. -/
def maxNesting : Nat := 80

/-! ## Blanks and line ends -/

/-- Characters that a comment may hold. -/
def isCommentChar (c : Char) : Bool :=
  !isControl c && c != '\n'

/-- The text behind a comment, if one starts here. -/
def skipComment : Text → Text
  | '#' :: rest => rest.dropWhile isCommentChar
  | text => text

/-- The text behind the end of a statement: blanks, a comment and a line end. -/
def endLine? (text : Text) : Option Text :=
  match skipComment (skipBlanks text) with
  | [] => some []
  | rest => newline? rest

/-- The text behind blanks, line ends and comments that end in a line end. -/
def skipFiller : Nat → Text → Text
  | 0, text => text
  | fuel + 1, text =>
      match newline? (skipComment (skipBlanks text)) with
      | some rest => skipFiller fuel rest
      | none => skipBlanks text

/-! ## Keys -/

/-- Characters of a key without quotes. -/
def isBareKeyChar (c : Char) : Bool :=
  c.isAlphanum || c == '_' || c == '-'

/-- One part of a key: a bare word or a string on one line. -/
def readKeyPart? : Text → Option (Text × Text)
  | [] => none
  | '"' :: rest => readBasic? rest
  | '\'' :: rest => readLiteral? rest
  | c :: rest =>
      if isBareKeyChar c then
        some ((c :: rest).takeWhile isBareKeyChar, (c :: rest).dropWhile isBareKeyChar)
      else none

/-- The parts of a key between dots, with blanks around each. -/
def readKeyParts? : Nat → Text → Option (List Text × Text)
  | 0, _ => none
  | fuel + 1, text => do
      let (part, rest) ← readKeyPart? (skipBlanks text)
      match skipBlanks rest with
      | '.' :: rest => do
          let (parts, rest) ← readKeyParts? fuel rest
          some (part :: parts, rest)
      | rest => some ([part], rest)

/-- A key: the parts that lead to its table, and the last one. -/
def readKey? (text : Text) : Option (List Text × Text × Text) := do
  let (parts, rest) ← readKeyParts? text.length text
  if maxNesting ≤ parts.length then none
  some (parts.dropLast, ← parts.getLast?, rest)

/-! ## Values -/

/-- The items of an array, read behind its opening bracket. -/
def readItems? (item : Text → Option (Value × Text)) : Nat → Text → Option (List Value × Text)
  | 0, _ => none
  | fuel + 1, text =>
      match skipFiller text.length text with
      | ']' :: rest => some ([], rest)
      | text => do
          let (value, rest) ← item text
          match skipFiller rest.length rest with
          | ',' :: rest => do
              let (values, rest) ← readItems? item fuel rest
              some (value :: values, rest)
          | ']' :: rest => some ([value], rest)
          | _ => none

/-- A key with its value. -/
def readPair? (item : Text → Option (Value × Text)) (text : Text) :
    Option ((List Text × Text × Value) × Text) := do
  let (path, key, rest) ← readKey? text
  let rest ← expect? '=' rest
  let (value, rest) ← item (skipBlanks rest)
  some ((path, key, value), rest)

/-- The rows of a table between braces, read behind its opening brace or a comma. -/
def readRows? (item : Text → Option (Value × Text)) : Nat → Rows → Text → Option (Rows × Text)
  | 0, _, _ => none
  | fuel + 1, rows, text => do
      let ((path, key, value), rest) ← readPair? item text
      let rows ← rows.addDotted? path key value
      match skipBlanks rest with
      | ',' :: rest => readRows? item fuel rows rest
      | '\x7d' :: rest => some (rows, rest)
      | _ => none

/-- A value in which arrays and braces nest at most `depth` deep. -/
def readValue? : Nat → Text → Option (Value × Text)
  | 0, text => readScalar? text
  | depth + 1, text =>
      match text with
      | '[' :: rest => do
          let (items, rest) ← readItems? (readValue? depth) rest.length rest
          some (.array items, rest)
      | '\x7b' :: rest =>
          match skipBlanks rest with
          | '\x7d' :: rest => some (.table .inline [], rest)
          | inside => do
              let (rows, rest) ← readRows? (readValue? depth) inside.length [] inside
              some (.table .inline rows, rest)
      | _ => readScalar? text

/-! ## Statements -/

/-- What has been read of a document: its rows, and the key of the table that pairs go to. -/
structure Draft where
  rows : Rows
  current : List Text

/-- Adds a statement, read from the first character that is no blank. -/
def readStatement? (draft : Draft) : Text → Option (Draft × Text)
  | '[' :: '[' :: rest => do
      let (path, key, rest) ← readKey? rest
      let rest ← expect? ']' rest
      let rest ← expect? ']' rest
      let rest ← endLine? rest
      some (⟨← draft.rows.openItem? path key, path ++ [key]⟩, rest)
  | '[' :: rest => do
      let (path, key, rest) ← readKey? rest
      let rest ← expect? ']' rest
      let rest ← endLine? rest
      some (⟨← draft.rows.openTable? path key, path ++ [key]⟩, rest)
  | text => do
      let ((path, key, value), rest) ← readPair? (readValue? (maxNesting - 1)) text
      let rest ← endLine? rest
      let rows ← Rows.changeAt false (fun _ inner => inner.addDotted? path key value)
        draft.current .header draft.rows
      some ({ draft with rows }, rest)

/-- The rows after all statements of a text.  Each turn reads a line at least. -/
def readStatements? : Nat → Draft → Text → Option Rows
  | 0, _, _ => none
  | fuel + 1, draft, text =>
      match skipBlanks text with
      | [] => some draft.rows
      | text =>
          match newline? (skipComment text) with
          | some rest => readStatements? fuel draft rest
          | none =>
              if text.head? = some '#' then
                if skipComment text = [] then some draft.rows else none
              else do
                let (draft, rest) ← readStatement? draft text
                readStatements? fuel draft rest

/-- The root table of a document.  A byte order mark in front is no part of it. -/
def readDocument? (text : Text) : Option Rows :=
  let text := if text.head? = some '\uFEFF' then text.drop 1 else text
  readStatements? (text.length + 1) ⟨[], []⟩ text

end StaticSite.Toml
