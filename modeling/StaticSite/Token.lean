import StaticSite.Text

/-!
# Tokens

Page source is a sequence of tokens: raw HTML and directives such as `{{ slot "main" }}`.  A
token records its kind, its content and the byte span that it covers in the source.
-/

namespace StaticSite

/-- Raw HTML, or one of the seven directives. -/
inductive TokenKind where
  | raw
  | inclusion
  | layout
  | endLayout
  | block
  | endBlock
  | slot
  | prop
  deriving DecidableEq, Repr, Inhabited

namespace TokenKind

/-- The word that starts a directive; raw HTML has none. -/
def keyword? : TokenKind → Option Text
  | raw => none
  | inclusion => some "include".toList
  | layout => some "layout".toList
  | endLayout => some "endlayout".toList
  | block => some "block".toList
  | endBlock => some "endblock".toList
  | slot => some "slot".toList
  | prop => some "prop".toList

/-- The seven kinds that a keyword can name. -/
def directives : List TokenKind :=
  [inclusion, layout, endLayout, block, endBlock, slot, prop]

/-- The directive that a word names; case matters. -/
def ofKeyword? (word : Text) : Option TokenKind :=
  directives.find? fun kind => kind.keyword? == some word

/-- Closing directives ignore what is written after their keyword. -/
def takesArguments : TokenKind → Bool
  | endLayout | endBlock => false
  | _ => true

end TokenKind

/-- A piece of page source. -/
structure Token where
  kind : TokenKind
  /-- The source itself for raw HTML, the trimmed arguments for a directive. -/
  content : Text
  /-- Byte offset of the first character. -/
  start : Nat
  /-- Byte offset just after the last character. -/
  stop : Nat
  deriving DecidableEq, Repr, Inhabited

namespace Token

/-- Raw HTML that begins at byte `start`. -/
def rawAt (start : Nat) (html : Text) : Token where
  kind := .raw
  content := html
  start := start
  stop := start + Text.byteLength html

/-- Whether the token is one of the seven directives. -/
def isDirective (token : Token) : Bool :=
  token.kind != .raw

/-- The part of `source` that the token covers. -/
def lexeme (source : Text) (token : Token) : Text :=
  Text.takeBytes (token.stop - token.start) (Text.dropBytes token.start source)

/-- The source without the part that the token covers. -/
def removeFrom (source : Text) (token : Token) : Text :=
  Text.takeBytes token.start source ++ Text.dropBytes token.stop source

end Token

end StaticSite
